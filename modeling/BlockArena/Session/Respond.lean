import BlockArena.Session.Arena
import BlockArena.Session.Heap
import BlockArena.Session.Stateless
import BlockArena.Session.Store

/-! # Answering a request

`respond` answers a whole request: a question gets one answer, and a request that builds an
arena, a heap or a storage gets one answer per step, or the failure of its set-up. A request
whose members could not be read is answered by why.
-/

set_option autoImplicit false

namespace BlockArena

namespace Session

def respond : Request → Response
  | .word call => .single call.answer
  | .layout size align withSize => .single (layoutAnswer size align withSize)
  | .arrayLayout elem count => .single (arrayAnswer elem count)
  | .neededBytes blockSize count =>
    .single (ofExcept (Arena.neededBytes blockSize count) fun n => .size n.toInt)
  | .region r elemSize oldLen newLen => .single (regionAnswer r elemSize oldLen newLen)
  | .danglingPointer align => .single (ofExcept (Addr.danglingFor align) fun _ => .danglingPointer)
  | .flagsText family value => .single (flagsAnswer family value)
  | .failureMessage l => .single (.ok (.failureText (Fault.allocationAborted l).message))
  | .arena spec steps => arenaResponse spec steps
  | .heap steps => .results (heapAnswers {} steps)
  | .store kind sized steps => storeResponse kind sized steps
  | .unknown name => .single (misuse ("unknown op " ++ Text.quote name))
  | .misread why => .single (misuse why.message)

end Session

end BlockArena

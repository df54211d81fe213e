import BlockArena.Word
import BlockArena.Text.Argument
import BlockArena.Text.Printable
import BlockArena.Text.Hex
import BlockArena.Text.Quoted
import BlockArena.Text.ByteSize
import BlockArena.Text.Decimal
import BlockArena.Layout
import BlockArena.Elem
import BlockArena.Fault
import BlockArena.Layout.Check
import BlockArena.Stats
import BlockArena.Flags
import BlockArena.Region
import BlockArena.Addr
import BlockArena.Metrics
import BlockArena.Act
import BlockArena.Buffer
import BlockArena.Arena.Basic
import BlockArena.Arena.Table
import BlockArena.Arena.Alloc
import BlockArena.Arena.Report
import BlockArena.Heap
import BlockArena.Memory
import BlockArena.Storage.Basic
import BlockArena.Storage.Block
import BlockArena.Storage.Block.Compact
import BlockArena.Storage.Block.Create
import BlockArena.Storage.Alloc
import BlockArena.Storage.Address
import BlockArena.Storage.Heap
import BlockArena.Storage.Inline
import BlockArena.Storage.Sized
import BlockArena.Handle.Basic
import BlockArena.Handle.Typed
import BlockArena.Handle.Slice
import BlockArena.Handle.Sliced
import BlockArena.Handle.Unique
import BlockArena.Handle.Ref
import BlockArena.Session.Answer
import BlockArena.Session.Request
import BlockArena.Session.Bench
import BlockArena.Session.Handles
import BlockArena.Session.Stateless
import BlockArena.Session.Arena
import BlockArena.Session.Heap
import BlockArena.Session.Store
import BlockArena.Session.Respond
import BlockArena.Wire.Value
import BlockArena.Wire.Parse
import BlockArena.Wire.Print
import BlockArena.Wire.Misread
import BlockArena.Wire.Fields
import BlockArena.Wire.Request
import BlockArena.Wire.Answer
import BlockArena.Wire.Line
import BlockArena.Proofs.Table
import BlockArena.Proofs.Geometry
import BlockArena.Proofs.FirstFit
import BlockArena.Proofs.Buffer
import BlockArena.Proofs.Requests
import BlockArena.Proofs.Occupancy
import BlockArena.Proofs.Space
import BlockArena.Proofs.Store.Invariant
import BlockArena.Proofs.Store.Operations
import BlockArena.Proofs.Store.Calls
import BlockArena.Proofs.Serving
import BlockArena.Proofs.Outcome
import BlockArena.Proofs.Refusal
import BlockArena.Proofs.Owners
import BlockArena.Proofs.RefusedResize
import BlockArena.Proofs.Epoch
import BlockArena.Proofs.References
import BlockArena.Proofs.Frame
import BlockArena.Proofs.Lengths
import BlockArena.Proofs.Contents
import BlockArena.Proofs.Isolation.Addresses
import BlockArena.Proofs.Placement
import BlockArena.Proofs.Compaction
import BlockArena.Proofs.Settling
import BlockArena.Proofs.RunRequests
import BlockArena.Proofs.Packing
import BlockArena.Proofs.WholeElements
import BlockArena.Proofs.Ownership
import BlockArena.Proofs.RememberedSize
import BlockArena.Proofs.ResizeContract
import BlockArena.Proofs.InPlaceResize
import BlockArena.Proofs.ElementResize
import BlockArena.Proofs.Sizing
import BlockArena.Proofs.LayoutChecks
import BlockArena.Proofs.SingleUse
import BlockArena.Proofs.Reports
import BlockArena.Proofs.OverflowChecks
import BlockArena.Proofs.ZeroSized
import BlockArena.Proofs.Release
import BlockArena.Proofs.StoreRelease
import BlockArena.Proofs.Rounding
import BlockArena.Proofs.StatsLedger
import BlockArena.Proofs.HeapAccounting
import BlockArena.Proofs.HeapResize

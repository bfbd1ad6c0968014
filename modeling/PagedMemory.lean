import PagedMemory.Proofs.Frame.Client
import PagedMemory.Proofs.Frame.Hostile
import PagedMemory.Proofs.Frame.StackOrder
import PagedMemory.Proofs.Session.Crossing
import PagedMemory.Proofs.Session.Failures
import PagedMemory.Proofs.Session.Junk
import PagedMemory.Proofs.Session.Mappings
import PagedMemory.Proofs.Session.Objects
import PagedMemory.Proofs.Session.Ownership
import PagedMemory.Proofs.Session.Refusals
import PagedMemory.Proofs.Session.SelfTest
import PagedMemory.Proofs.Session.Shape
import PagedMemory.Proofs.Session.Storing
import PagedMemory.Proofs.Session.Undisturbed
import PagedMemory.Proofs.Session.ViewEffects
import PagedMemory.Proofs.Session.Walks
import PagedMemory.Proofs.Text.Entries
import PagedMemory.Proofs.Text.Printing
import PagedMemory.Session.Counters
import PagedMemory.Session.Slices
import PagedMemory.Session.Step
import PagedMemory.Window

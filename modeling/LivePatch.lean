import LivePatch.Checksum
import LivePatch.Files.Changes
import LivePatch.Main
import LivePatch.Rehearsal.Session
import LivePatch.Proofs.Patch.Redirecting
import LivePatch.Proofs.Relocation.Field
import LivePatch.Proofs.Session.Restoration
import LivePatch.Proofs.Build.Backups
import LivePatch.Proofs.Build.PatchNames
import LivePatch.Proofs.Build.Stripping
import LivePatch.Proofs.Coff.Edits
import LivePatch.Proofs.Objects.References
import LivePatch.Proofs.Patch.Dangling
import LivePatch.Proofs.Redirect.Threads
import LivePatch.Proofs.Session.Objects
import LivePatch.Proofs.Session.Naming
import LivePatch.Proofs.Session.Sparing
import LivePatch.Proofs.Session.Quiet
import LivePatch.Proofs.Patch.Tokens
import LivePatch.Proofs.Session.Tally
import LivePatch.Proofs.Session.Delivery
import LivePatch.Proofs.Session.Discipline
import LivePatch.Proofs.Session.Chains
import LivePatch.Proofs.Session.Following
import LivePatch.Proofs.Session.CatchingUp
import LivePatch.Proofs.Patch.Disk
import LivePatch.Proofs.Patch.Reach
import LivePatch.Proofs.Process.Stillness
import LivePatch.Proofs.Patch.Stillness
import LivePatch.Proofs.Session.Handling
import LivePatch.Proofs.Build.Instances
import LivePatch.Proofs.Build.Changes
import LivePatch.Proofs.Build.Emptied
import LivePatch.Proofs.Session.Staleness
import LivePatch.Proofs.Session.Reinstalling
import LivePatch.Proofs.Process.Placement
import LivePatch.Proofs.Process.Flat
import LivePatch.Proofs.Redirect.Fitting
import LivePatch.Proofs.Patch.Installing
import LivePatch.Proofs.Images.Stopping
import LivePatch.Proofs.Build.Closure
import LivePatch.Proofs.Session.Stages
import LivePatch.Proofs.Memory.Staying
import LivePatch.Proofs.Patch.Lasting
import LivePatch.Proofs.Session.Succeeding
import LivePatch.Proofs.Coff.Directives
import LivePatch.Proofs.Objects.Recording
import LivePatch.Proofs.Objects.Agreement
import LivePatch.Proofs.Coff.Sequences
import LivePatch.Proofs.Coff.Guarding
import LivePatch.Proofs.Patch.Repeating
import LivePatch.Proofs.Process.Parking
import LivePatch.Proofs.Process.Leaving
import LivePatch.Proofs.Attached.Calling
import LivePatch.Proofs.Patch.Spelling
import LivePatch.Proofs.Patch.Edits
import LivePatch.Proofs.Patch.Making
import LivePatch.Proofs.Patch.Taking
import LivePatch.Proofs.Patch.Telling
import LivePatch.Proofs.Tables.Contributions
import LivePatch.Proofs.Attached.Forwarding
import LivePatch.Proofs.Redirect.Exactness

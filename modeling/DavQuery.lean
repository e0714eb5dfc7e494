import DavQuery.Main
import DavQuery.Proofs.Block
import DavQuery.Proofs.Calendar.Arithmetic
import DavQuery.Proofs.Calendar.Months
import DavQuery.Proofs.Calendar.Rest
import DavQuery.Proofs.Connection
import DavQuery.Proofs.Folder.Request
import DavQuery.Proofs.Listing.Gap
import DavQuery.Proofs.Listing.Rendering
import DavQuery.Proofs.Listing.Spelling
import DavQuery.Proofs.Extension
import DavQuery.Proofs.Query.Changes
import DavQuery.Proofs.Query.Layout
import DavQuery.Proofs.Runs
import DavQuery.Proofs.Command.Agreement
import DavQuery.Proofs.Command.LoggedIn
import DavQuery.Proofs.Command.Saving
import DavQuery.Proofs.Command.Ways
import DavQuery.Proofs.Instant
import DavQuery.Proofs.Slot
import DavQuery.Proofs.Selection.Bound
import DavQuery.Proofs.Selection.Case
import DavQuery.Proofs.Selection.Composition
import DavQuery.Proofs.Selection.Items
import DavQuery.Proofs.Template.Pass
import DavQuery.Proofs.Size

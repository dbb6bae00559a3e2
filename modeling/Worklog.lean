import Worklog.Main
import Worklog.Proofs.Field.Lineage
import Worklog.Proofs.Field.Verbatim
import Worklog.Proofs.HashOrder
import Worklog.Proofs.Query.Layout
import Worklog.Proofs.Query.LetterCase
import Worklog.Proofs.Query.Representation
import Worklog.Proofs.Query.Whole
import Worklog.Proofs.Rollup.ByMonth
import Worklog.Proofs.Rollup.Finite
import Worklog.Proofs.Session.Presentation
import Worklog.Proofs.Session.Rearrangement
import Worklog.Proofs.Session.Respelling
import Worklog.Proofs.Session.Rolling
import Worklog.Proofs.Session.Rollups
import Worklog.Proofs.Session.Safety
import Worklog.Proofs.Session.Trend
import Worklog.Proofs.Table.ReadBack

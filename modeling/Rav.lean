import Rav.Account
import Rav.Agreement
import Rav.Assistant.Stream
import Rav.Attached
import Rav.Attempts
import Rav.Badges
import Rav.Bulk
import Rav.CacheHit
import Rav.CalendarWindow
import Rav.Ceremonies
import Rav.Checkpoint
import Rav.Convergence
import Rav.DateHeaders
import Rav.DateOperators
import Rav.Db.Pool
import Rav.DefaultIdentity
import Rav.DraftKept
import Rav.DraftLocks
import Rav.Dropped
import Rav.EmailTheme
import Rav.Enrolment
import Rav.Epoch
import Rav.Escaping
import Rav.FailClosed
import Rav.Fences
import Rav.FilterFlags
import Rav.FullFetch
import Rav.Gate
import Rav.IdleOwners
import Rav.Imports
import Rav.IndexProgress
import Rav.InlineImages
import Rav.Isolation
import Rav.LastPasskey
import Rav.LinkRewrite
import Rav.Lockout
import Rav.OneCopy
import Rav.OneWorker
import Rav.Phantom
import Rav.Pruned
import Rav.PushCredentials
import Rav.QueryItems
import Rav.QueuedAttachments
import Rav.Removed
import Rav.Renamed
import Rav.Replaced
import Rav.ReplyInterval
import Rav.ReplyTrees
import Rav.Restored
import Rav.Routes.Pgp
import Rav.ScriptOrder
import Rav.SearchSound
import Rav.SessionReuse
import Rav.Sessions
import Rav.SieveSync
import Rav.SingleUse
import Rav.Smtp.SignedText
import Rav.Spelling
import Rav.SearchIndex
import Rav.Suggestions
import Rav.Tagged
import Rav.ThreadPages
import Rav.Undo
import Rav.Unmarked
import Rav.Unstuck
import Rav.Upload
import Rav.VCards
import Rav.Vanished
import Rav.Verdicts
import Rav.Wakeups
import Rav.WholeThreads

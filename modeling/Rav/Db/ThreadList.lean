import Mathlib.Data.Prod.Lex
import Rav.Db.Cache
import Rav.Db.Search
import Rav.Db.Unread
import Rav.Pages
import Rav.Worklist

/-!
# Threads and tagged messages

The pages of a folder, with one row for each thread, and the pages of a tag. The offset of a page is a
product of two `u32`, which wraps around. A whole thread is found by a walk along the identifiers of
messages, over all folders. In the References a message is looked for with `LIKE`; `%` and `_` of the
identifier are escaped, the escape character is not.

## Main definitions

- `CachedMessage.threadKey` — the column the threads of a folder are told apart by
- `Cache.getThreadedMessages`, `Cache.countThreads` — a page of threads, and their number
- `Cache.getMessagesByTag`, `Cache.countMessagesByTag` — a page of a tag, and its number of messages
- `CachedMessage.relatesTo`, `Cache.getThreadMessages` — the messages found by one identifier
- `Cache.getFullThread` — those found by any identifier that turns up
-/

namespace Rav

/-- `COALESCE(thread_id, CAST(uid AS TEXT))`. -/
def CachedMessage.threadKey (m : CachedMessage) : String := m.threadId.getD (toString m.uid)

/-- What messages are ordered by: `date_epoch`, then `uid`. -/
def CachedMessage.rank (m : CachedMessage) : Int ×ₗ Nat := toLex (m.dateEpoch,m.uid)

/-- A message that stands for its thread in a folder. -/
structure ThreadedMessage where
  msg : CachedMessage
  threadCount : Nat
  unreadCount : Nat
  deriving DecidableEq, Repr

/-- A column read into a `u32`. -/
def asU32 (n : Nat) : Option Nat := if n < 4294967296 then some n else none

/-- A row of `threadCount` and `unreadCount`, read into two of them. -/
def ThreadedMessage.read (t : ThreadedMessage) : Option ThreadedMessage := do
  let threadCount ← asU32 t.threadCount
  let unreadCount ← asU32 t.unreadCount
  return ⟨t.msg,threadCount,unreadCount⟩

/-! ### The threads of a folder -/

section Partition

variable (rows : List CachedMessage) (r : CachedMessage)

/-- `PARTITION BY COALESCE(thread_id, CAST(uid AS TEXT))`. -/
def threadPartition : List CachedMessage := rows.filter (fun s => s.threadKey = r.threadKey)

/-- `ROW_NUMBER()` in the order of `date_epoch DESC, uid DESC`. -/
def rowNumber : Nat := ((threadPartition rows r).filter (fun s => r.rank < s.rank)).length + 1

/-- `MAX(date_epoch)`. -/
def threadLatestEpoch : Int := (threadPartition rows r).foldr (fun s t => max s.dateEpoch t) r.dateEpoch

/-- What the threads are ordered by: `thread_latest_epoch`, then `uid`. -/
def threadRank : Int ×ₗ Nat := toLex (threadLatestEpoch rows r,r.uid)

def threadedMessage : ThreadedMessage where
  msg := r
  threadCount := (threadPartition rows r).length
  unreadCount := ((threadPartition rows r).filter CachedMessage.unread).length

end Partition

namespace Cache

variable (c : Cache)

/-- `SELECT … FROM messages WHERE folder = ?1`. -/
def folderRows (folder : String) : List CachedMessage :=
  (c.rows.messages.map StoredMessage.header).filter (fun m => m.folder = folder)

/-- All rows of the list of threads, before `LIMIT`. -/
def threadList (folder : String) : List ThreadedMessage :=
  let rows := c.folderRows folder
  ((rows.filter (fun r => rowNumber rows r = 1)).insertionSort
    (fun r s => threadRank rows s ≤ threadRank rows r)).map (threadedMessage rows)

/-- Return one row per thread for a folder, latest first. -/
def getThreadedMessages (folder : String) (page perPage : UInt32) : Option (List ThreadedMessage) :=
  let offset := page * perPage
  (((c.threadList folder).drop offset.toNat).take perPage.toNat).mapM ThreadedMessage.read

/-- Return the number of distinct threads in a folder (for pagination). -/
def countThreads (folder : String) : Option Nat :=
  asU32 ((c.folderRows folder).map CachedMessage.threadKey).dedup.length

/-! ### The messages of a tag -/

/-- `JOIN messages m ON mt.message_uid = m.uid AND mt.message_folder = m.folder`. -/
def taggedMessage (t : MessageTagRow) : Option CachedMessage :=
  (c.rows.messages.map StoredMessage.header).find? (fun m => m.key = t.message)

/-- The messages with a tag, latest first, before `LIMIT`; messages of one time are in the order of the
tags. -/
def tagList (tagId : String) : List CachedMessage :=
  ((c.rows.messageTags.filter (fun t => t.tagId = tagId)).filterMap c.taggedMessage).insertionSort
    (fun r s => s.dateEpoch ≤ r.dateEpoch)

/-- Get messages by tag (paginated), ordered by date descending. -/
def getMessagesByTag (tagId : String) (page perPage : UInt32) : List CachedMessage :=
  let offset := page * perPage
  ((c.tagList tagId).drop offset.toNat).take perPage.toNat

/-- Count messages with a given tag. -/
def countMessagesByTag (tagId : String) : Option Nat :=
  asU32 (c.rows.messageTags.filter (fun t => t.tagId = tagId)).length

end Cache

/-! ### Whole threads -/

/-- The pattern for an identifier anywhere in the References. -/
def threadPattern (targetMessageId : String) : String :=
  let escapedTarget := replaceChar '_' "\\_" (replaceChar '%' "\\%" targetMessageId)
  anywhere escapedTarget

/-- `message_id = ?1 OR in_reply_to = ?1 OR references_header LIKE ?2 ESCAPE '\'`. -/
def CachedMessage.relatesTo (m : CachedMessage) (targetMessageId : String) : Bool :=
  m.messageId = some targetMessageId || m.inReplyTo = some targetMessageId ||
    m.referencesHeader.any (sqlLikeEscape (threadPattern targetMessageId))

/-- The identifiers in the headers of a message. -/
def CachedMessage.identifiers (m : CachedMessage) : List String :=
  m.messageId.toList.filter (· ≠ "") ++ m.inReplyTo.toList.filter (· ≠ "") ++
    m.referencesHeader.toList.flatMap splitWhitespace

namespace Cache

variable (c : Cache)

/-- The rows of `messages`. -/
def headers : List CachedMessage := c.rows.messages.map StoredMessage.header

/-- Find messages related to the given `target_message_id` for threading. -/
def getThreadMessages (targetMessageId : String) : List CachedMessage :=
  (c.headers.filter (fun m => m.relatesTo targetMessageId)).insertionSort
    (fun r s => r.dateEpoch ≤ s.dateEpoch)

/-- Build a complete email thread by transitively walking the References chain: the identifiers known
are looked up until there are no new ones, as long as there is fuel. -/
def getFullThread (order : IterOrder String) (fuel : Nat) (messageId : String)
    (references : Option String) : Option (List CachedMessage) :=
  let knownIds := messageId :: references.toList.flatMap splitWhitespace
  (Worklist.run c.getThreadMessages CachedMessage.identifiers order fuel (.start knownIds)).map
    fun w => (retainFirst CachedMessage.key [] w.items).insertionSort
      (fun r s => r.dateEpoch ≤ s.dateEpoch)

end Cache

end Rav

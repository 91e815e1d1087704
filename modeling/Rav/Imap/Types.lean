import Rav.Json

/-!
# IMAP data

What the client reads from the server: folder status, message headers and bodies, and what
changed since a modification sequence.

Headers and bodies carry an `Origin`, the epoch they were fetched under and the message
they belong to. It is ghost data: no function of the program reads it.
-/

namespace Rav

structure ImapCredentials where
  host : String
  port : UInt16
  tls : Bool
  email : String
  password : String
  deriving DecidableEq, Repr

/-- Where a header or a body comes from: the UIDVALIDITY in force when it was fetched and the
delivery it belongs to. -/
structure Origin where
  uidValidity : Nat
  serial : Nat
  deriving DecidableEq, Repr

/-- A parsed email address with optional display name. -/
structure EmailAddress where
  name : Option String
  address : String
  deriving DecidableEq, Repr

def EmailAddress.json (a : EmailAddress) : String :=
  Json.object [("name",Json.option Json.string a.name),("address",Json.string a.address)]

/-- A lightweight summary of an email message (envelope data). -/
structure ImapMessageHeader where
  uid : Nat
  subject : Option String
  from_ : List EmailAddress
  to_ : List EmailAddress
  date : Option String
  dateEpoch : Int
  flags : List String
  hasAttachments : Bool
  size : Nat
  messageId : Option String
  inReplyTo : Option String
  references : Option String
  cc : List EmailAddress
  reaction : Option String
  origin : Origin
  deriving DecidableEq, Repr

structure ImapAttachment where
  filename : Option String
  contentType : String
  size : Nat
  data : List Nat
  contentId : Option String
  deriving DecidableEq, Repr

def ImapAttachment.json (a : ImapAttachment) : String :=
  Json.object [("filename",Json.option Json.string a.filename),
    ("content_type",Json.string a.contentType),("size",toString a.size),
    ("data",Json.array toString a.data),("content_id",Json.option Json.string a.contentId)]

/-- The full body of an email message, including attachments. -/
structure ImapMessageBody where
  uid : Nat
  textPlain : Option String
  textHtml : Option String
  attachments : List ImapAttachment
  rawHeaders : String
  origin : Origin
  deriving DecidableEq, Repr

/-- Result of an IMAP `SELECT`. -/
structure FolderStatus where
  uidValidity : Nat
  exists_ : Nat
  uidNext : Nat
  deriving DecidableEq, Repr

/-- Result of an IMAP `STATUS`; an attribute the server leaves out is 0. -/
structure FolderStatusExtended where
  uidValidity : Nat
  exists_ : Nat
  uidNext : Nat
  unseen : Nat
  highestModseq : Nat
  deriving DecidableEq, Repr

/-- What changed in a folder since a given MODSEQ: `vanished` is `none` where the server did
not say what was removed. -/
structure ChangedFlags where
  changed : List (Nat × List String)
  vanished : Option (List Nat)
  highestModseq : Nat
  deriving DecidableEq, Repr

inductive ImapError
  | connectionFailed (text : String)
  | authenticationFailed
  | folderNotFound (folder : String)
  | messageNotFound (uid : Nat) (folder : String)
  | protocolError (text : String)
  deriving DecidableEq, Repr

def ImapError.display : ImapError → String
  | .connectionFailed text => text
  | .authenticationFailed => "Authentication failed"
  | .folderNotFound name => "Folder not found: " ++ name
  | .messageNotFound uid folder =>
    "Message UID " ++ toString uid ++ " not found in folder " ++ folder
  | .protocolError text => "Protocol error: " ++ text

/-- The UID sets the program asks headers for. -/
inductive UidSet
  | fromOn (start : Nat)          -- "{start}:*"
  | upTo (start stop : Nat)       -- "{start}:{stop}"
  deriving DecidableEq, Repr

end Rav

import Rav.Db.Folders

/-!
# The client's body fetch

`fetch_body` from the connection to the parsed message: every way in which it can fail, and the error
it then reports. What the server has said in the course of it is kept beside what the client makes of
it.

## Main definitions

- `ConnectError`, `AsyncImapError` — what goes wrong on a connection, and the texts for it
- `BodyExchange` — one exchange
- `BodyExchange.fetchBody` — what the client reports
- `BodyExchange.Established` — the server has said that there is no such message
-/

namespace Rav

/-- The kinds of I/O errors that are told apart. -/
inductive IoErrorKind
  | connectionRefused
  | timedOut
  | other
  deriving DecidableEq, Repr

inductive ConnectError
  | connectionRefused
  | timeout
  | tlsHandshake
  | unreachable
  | badServerResponse
  deriving DecidableEq, Repr

def ConnectError.fromIo : IoErrorKind → ConnectError
  | .connectionRefused => .connectionRefused
  | .timedOut => .timeout
  | .other => .unreachable

def ConnectError.display : ConnectError → String
  | .connectionRefused => "Connection refused - check the server address and port"
  | .timeout => "Connection timed out - the server did not respond"
  | .tlsHandshake => "Could not establish a secure connection - the server's TLS certificate " ++
      "may be invalid or untrusted"
  | .unreachable => "Could not reach the server - check your network and server settings"
  | .badServerResponse => "The server returned an unexpected response"

/-- The errors of the IMAP library; `other` with the text it shows. -/
inductive AsyncImapError
  | no (msg : String)
  | io (kind : IoErrorKind)
  | connectionLost
  | other (text : String)
  deriving DecidableEq, Repr

/-- An error during LOGIN. -/
def classifyLoginError : AsyncImapError → ImapError
  | .no _ => .authenticationFailed
  | .io kind => .connectionFailed (ConnectError.fromIo kind).display
  | .connectionLost => .connectionFailed ConnectError.unreachable.display
  | .other _ => .connectionFailed ConnectError.badServerResponse.display

def mapImapError : AsyncImapError → ImapError
  | .no msg => .protocolError ("NO: " ++ msg)
  | .io kind => .connectionFailed (ConnectError.fromIo kind).display
  | .connectionLost => .connectionFailed ConnectError.unreachable.display
  | .other text => .protocolError text

/-- A refusal that says that the folder does not exist. -/
def saysNotFound (msg : String) : Bool :=
  likeInfix "not found" msg || likeInfix "doesn't exist" msg || likeInfix "does not exist" msg ||
    likeInfix "no such" msg

def mapSelectError (folder : String) : AsyncImapError → ImapError
  | .no msg => if saysNotFound msg then .folderNotFound folder else mapImapError (.no msg)
  | e => mapImapError e

/-- How the client gets a session: from its pool, or over a new connection, which may fail. -/
inductive Connecting
  | pooled
  | fresh
  | tcpTimeout
  | tcpError (kind : IoErrorKind)
  | tlsError
  | loginError (e : AsyncImapError)
  deriving DecidableEq, Repr

def Connecting.acquire : Connecting → Except ImapError Unit
  | .pooled => .ok ()
  | .fresh => .ok ()
  | .tcpTimeout => .error (.connectionFailed ConnectError.timeout.display)
  | .tcpError kind => .error (.connectionFailed (ConnectError.fromIo kind).display)
  | .tlsError => .error (.connectionFailed ConnectError.tlsHandshake.display)
  | .loginError e => .error (classifyLoginError e)

/-- An item of the answer to a `UID FETCH`. -/
structure FetchedItem where
  uid : Option Nat
  body : Option (List UInt8)
  deriving DecidableEq, Repr

/-- One exchange: the session, the answers to SELECT and to sending the FETCH, the items that come in
until the stream ends, and whether it is the server's OK that ends it. The client cannot tell that
from a lost connection. -/
structure BodyExchange where
  session : Connecting
  select : Option AsyncImapError
  send : Option AsyncImapError
  items : List (Except AsyncImapError FetchedItem)
  completed : Bool

namespace BodyExchange

variable (x : BodyExchange)

/-- The items up to the first error. -/
def collect : List (Except AsyncImapError FetchedItem) → Except ImapError (List FetchedItem)
  | [] => .ok []
  | .error e :: _ => .error (mapImapError e)
  | .ok item :: rest => (collect rest).map (item :: ·)

/-- What the first item is parsed to. -/
def firstBody (parse : Nat → List UInt8 → Option ImapMessageBody) (folder : String) (uid : Nat) :
    List FetchedItem → Except ImapError ImapMessageBody
  | [] => .error (.messageNotFound uid folder)
  | item :: _ =>
    match item.body with
    | none => .error (.protocolError "BODY[] not returned by server")
    | some raw =>
      match parse uid raw with
      | none => .error (.protocolError "failed to parse RFC822 message")
      | some body => .ok body

/-- `fetch_body`; `parse` makes a message of the bytes. -/
def fetchBody (parse : Nat → List UInt8 → Option ImapMessageBody) (folder : String) (uid : Nat) :
    Except ImapError ImapMessageBody := do
  x.session.acquire
  match x.select with
  | some e => .error (mapSelectError folder e)
  | none =>
    match x.send with
    | some e => .error (mapImapError e)
    | none =>
      let fetches ← collect x.items
      firstBody parse folder uid fetches

/-- The server has said that the message is not in the folder: there is no such folder, or the FETCH
was carried out and no item is of that UID. -/
def Established (uid : Nat) : Prop :=
  x.session.acquire = .ok () ∧
    ((∃ msg, x.select = some (.no msg) ∧ saysNotFound msg = true) ∨
      (x.select = none ∧ x.send = none ∧ x.completed = true ∧
        ∀ i ∈ x.items, ∃ item, i = .ok item ∧ item.uid ≠ some uid))

end BodyExchange

end Rav

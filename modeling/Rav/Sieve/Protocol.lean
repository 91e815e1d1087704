import Rav.Prog
import Rav.Str

/-!
# `sieve::protocol` and `sieve::client`

The ManageSieve client: commands are written, answers are read line by line through a buffer. The TLS
handshake takes the stream out of its buffer and starts with a new one.

## Main definitions

- `SieveIo`, `SieveConn`, `SieveConn.serve` — the calls, the connection and the buffered reader
- `readCapabilities`, `expectOk`, `authenticatePlain`, `putScript`, `setActive`, `logout`
- `doPush`, `runSession` — a push, from the connection on
-/

namespace Rav

/-- What a single read of the socket brings; nothing more is the end of the stream. -/
inductive Arrival
  | chunk (bytes : List UInt8)
  | fail (error : String)
  deriving DecidableEq, Repr

/-- A byte received, with whether it came under TLS and the number of writes made before it came. -/
structure SieveByte where
  value : UInt8
  tls : Bool
  sent : Nat
  deriving DecidableEq, Repr

/-- What is written in one go. -/
inductive SieveWrite
  | starttls
  | authenticate (email password : String)
  | putScript (name : String) (length : Nat)
  | script (text : String)
  | crlf
  | setActive (name : String)
  | logout
  deriving DecidableEq, Repr

/-- What a connection has been through, under TLS or not: what was written, and the lines read. -/
inductive SieveLog
  | wrote (tls : Bool) (w : SieveWrite)
  | read (tls : Bool) (line : List SieveByte)
  deriving DecidableEq, Repr

/-- A connection: what will arrive before and after the TLS handshake, how that ends, and which writes
fail; and what has been received and not read yet. -/
structure SieveConn where
  plain : List Arrival
  secure : List Arrival
  connects : Option String
  handshakes : Option String
  refuses : Nat → Option String
  tls : Bool
  sent : Nat
  buffer : List SieveByte
  log : List SieveLog

inductive SieveIoCall
  | tcpConnect
  | write (w : SieveWrite)
  | readLine
  | tlsConnect

def SieveIoCall.Answer : SieveIoCall → Type
  | .readLine => Except String String
  | _ => Except String Unit

abbrev SieveIo := Prog SieveIoCall SieveIoCall.Answer

def sieveIo (c : SieveIoCall) : SieveIo c.Answer := Prog.perform (R := SieveIoCall.Answer) c

/-! ### The connection -/

/-- Up to and with the first newline, and the rest. -/
def splitLine : List SieveByte → Option (List SieveByte × List SieveByte)
  | [] => none
  | b :: bs =>
    if b.value = 10 then some ([b],bs) else (splitLine bs).map (fun r => (b :: r.1,r.2))

/-- A line: what is already read of it, what is buffered, and what is still to arrive. Returns the line,
what is buffered after it, and what is still to arrive then. -/
def takeLine (tls : Bool) (sent : Nat) (line : List SieveByte) :
    List Arrival → Except String (List SieveByte) × List SieveByte × List Arrival
  | [] => (.ok line,[],[])
  | .fail e :: rest => (.error ("ManageSieve: read error: " ++ e),[],rest)
  | .chunk bytes :: rest =>
    if bytes.isEmpty then (.ok line,[],rest)
    else
      match splitLine (bytes.map (fun b => ⟨b,tls,sent⟩)) with
      | some r => (.ok (line ++ r.1),r.2,rest)
      | none => takeLine tls sent (line ++ bytes.map (fun b => ⟨b,tls,sent⟩)) rest

namespace SieveConn

variable (w : SieveConn)

/-- What is still to arrive on the connection as it is. -/
def arriving : List Arrival := if w.tls then w.secure else w.plain

def withArriving (rest : List Arrival) : SieveConn :=
  if w.tls then { w with secure := rest } else { w with plain := rest }

/-- `BufReader::read_line`: the buffer first, then what arrives. -/
def nextLine : Except String (List SieveByte) × List SieveByte × List Arrival :=
  match splitLine w.buffer with
  | some r => (.ok r.1,r.2,w.arriving)
  | none => takeLine w.tls w.sent w.buffer w.arriving

def write (x : SieveWrite) : Except String Unit × SieveConn :=
  let w' := { w with sent := w.sent + 1, log := w.log ++ [.wrote w.tls x] }
  match w.refuses w.sent with
  | some e => (.error e,w')
  | none => (.ok (),w')

/-- A line, which must be UTF-8; none is the end of the stream. -/
def readLine : Except String String × SieveConn :=
  let r := w.nextLine
  let w' := { w.withArriving r.2.2 with buffer := r.2.1 }
  match r.1 with
  | .error e => (.error e,w')
  | .ok line =>
    let w' := { w' with log := w'.log ++ [.read w.tls line] }
    match fromUtf8 (line.map SieveByte.value) with
    | none => (.error "ManageSieve: read error: stream did not contain valid UTF-8",w')
    | some s =>
      if s = "" then (.error "ManageSieve: connection closed unexpectedly",w') else (.ok s,w')

/-- The stream is taken out of its buffer, what is buffered is lost, and TLS starts on it. -/
def tlsConnect : Except String Unit × SieveConn :=
  match w.handshakes with
  | some e => (.error ("ManageSieve: TLS handshake failed: " ++ e),{ w with buffer := [] })
  | none => (.ok (),{ w with tls := true, buffer := [] })

/-- Answer one call. -/
def serve : (c : SieveIoCall) → SieveConn → c.Answer × SieveConn
  | .tcpConnect, w =>
    match w.connects with
    | some e => (.error ("ManageSieve: connect failed: " ++ e),w)
    | none => (.ok (),w)
  | .write x, w => w.write x
  | .readLine, w => w.readLine
  | .tlsConnect, w => w.tlsConnect

end SieveConn

/-! ### The protocol -/

/-- What the server advertised. -/
structure Capabilities where
  starttls : Bool
  sasl : List String
  deriving DecidableEq, Repr

/-- A line that ends an answer well, and one that ends it badly. -/
def isOkLine (line : String) : Bool := "OK".toList.isPrefixOf (strTrim line).toList

def isErrorLine (line : String) : Bool :=
  "NO".toList.isPrefixOf (strTrim line).toList || "BYE".toList.isPrefixOf (strTrim line).toList

def serverError (line : String) : String := "ManageSieve: server error: " ++ strTrim line

/-- Take in one line of a capability list: what stands between quotes. -/
def Capabilities.take (caps : Capabilities) (line : String) : Capabilities :=
  let parts := (((strTrim line).toList.splitOn '"').map String.ofList).filter (fun p => strTrim p ≠ "")
  match parts with
  | [] => caps
  | name :: rest =>
    if strTrim name = "STARTTLS" then { caps with starttls := true }
    else if strTrim name = "SASL" then { caps with sasl := splitWhitespace (rest.head?.getD "") }
    else caps

/-- What a push ends with once its time is up. -/
def timedOut : String := "ManageSieve: connection timed out"

/-- Read the capability list; the time is up after `n` lines. -/
def readCapabilities : Nat → Capabilities → SieveIo (Except String Capabilities)
  | 0, _ => pure (.error timedOut)
  | n + 1, caps => do
    match ← sieveIo .readLine with
    | .error (e : String) => pure (.error e)
    | .ok (line : String) =>
      if isOkLine line then pure (.ok caps)
      else if isErrorLine line then pure (.error (serverError line))
      else readCapabilities n (caps.take line)

/-- Read until a line that ends the answer, skipping the others. -/
def expectOk : Nat → SieveIo (Except String Unit)
  | 0 => pure (.error timedOut)
  | n + 1 => do
    match ← sieveIo .readLine with
    | .error (e : String) => pure (.error e)
    | .ok (line : String) =>
      if isOkLine line then pure (.ok ())
      else if isErrorLine line then pure (.error (serverError line))
      else expectOk n

/-- Write one after the other, until one fails. -/
def writeAll : List SieveWrite → SieveIo (Except String Unit)
  | [] => pure (.ok ())
  | x :: xs => do
    match ← sieveIo (.write x) with
    | .error (e : String) => pure (.error e)
    | .ok () => writeAll xs

/-- Write a command, and read its answer. -/
def command (n : Nat) (xs : List SieveWrite) : SieveIo (Except String Unit) := do
  match ← writeAll xs with
  | .error e => pure (.error e)
  | .ok () => expectOk n

def requestStarttls (n : Nat) : SieveIo (Except String Unit) := command n [.starttls]

def authenticatePlain (n : Nat) (email password : String) : SieveIo (Except String Unit) :=
  command n [.authenticate email password]

def putScript (n : Nat) (name script : String) : SieveIo (Except String Unit) :=
  command n [.putScript name script.utf8ByteSize,.script script,.crlf]

def setActive (n : Nat) (name : String) : SieveIo (Except String Unit) := command n [.setActive name]

def logout : SieveIo Unit := do
  let _ ← sieveIo (.write .logout)

/-! ### A push -/

def runSession (n : Nat) (email password name script : String) : SieveIo (Except String Unit) := do
  match ← authenticatePlain n email password with
  | .error e => pure (.error e)
  | .ok () => do
    match ← putScript n name script with
    | .error e => pure (.error e)
    | .ok () => do
      match ← setActive n name with
      | .error e => pure (.error e)
      | .ok () => do
        logout
        pure (.ok ())

/-- What follows a successful request for TLS. -/
def pushSecurely (n : Nat) (email password name script : String) : SieveIo (Except String Unit) := do
  match ← sieveIo .tlsConnect with
  | .error (e : String) => pure (.error e)
  | .ok () => do
    match ← readCapabilities n ⟨false,[]⟩ with
    | .error e => pure (.error e)
    | .ok _ => runSession n email password name script

/-- Upload and activate a script; the time is up once an answer takes more than `n` lines. -/
def doPush (n : Nat) (allowPlaintext : Bool) (email password name script : String) :
    SieveIo (Except String Unit) := do
  match ← sieveIo .tcpConnect with
  | .error (e : String) => pure (.error e)
  | .ok () => do
    match ← readCapabilities n ⟨false,[]⟩ with
    | .error e => pure (.error e)
    | .ok caps =>
      if caps.starttls then do
        match ← requestStarttls n with
        | .error e => pure (.error e)
        | .ok () => pushSecurely n email password name script
      else if !allowPlaintext then
        pure (.error "ManageSieve: server offers no STARTTLS; refusing to authenticate over plaintext")
      else runSession n email password name script

end Rav

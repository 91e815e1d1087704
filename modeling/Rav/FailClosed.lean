import Rav.Realtime.Delivery

/-!
# Mail queued with PGP parameters

The parameters of a queued mail are stored as JSON, and an attempt that cannot read them takes
the mail for one without. So the attempt keeps to PGP exactly if the column parses, or if it does
not get as far as a message to submit.

## Main definitions

- `WrappedAs` — a submission in the PGP/MIME envelope its parameters ask for
- `StaysWrapped` — every submission of an attempt is one
-/

namespace Rav

/-- The bytes submitted are the PGP/MIME envelope that the parameters ask for. -/
def WrappedAs (stored : Option PgpSendParams) (s : Submission) : Prop :=
  ∃ pgp boundary inner wrapped, stored = some pgp ∧ s.message.pgp = some pgp ∧
    wrapPgpMime boundary inner pgp = .ok wrapped ∧ s.bytes = wrapped.toUTF8.data.toList

/-- Every submission of an attempt is wrapped as the stored parameters ask. -/
def StaysWrapped (env : MailEnv) (entry : OutboxEntry) (w w' : MailWorld) : Prop :=
  ∀ s ∈ w'.submissions.drop w.submissions.length, WrappedAs (storedPgp env entry) s

section Attempts

variable {env : MailEnv} {weather : MailCall → MailOutcome} {w : MailWorld} {entry : OutboxEntry}
  {json : String}

/-- A prepared message has the parameters of its entry. -/
theorem prepared_pgp {message : Smtp.SendableMessage} {inner : List UInt8}
    (h : Delivery.prepared env weather w entry = some (message,inner)) :
    message.pgp = storedPgp env entry := by
  unfold Delivery.prepared at h
  split at h
  · obtain ⟨host,-,hbuilt⟩ := Option.bind_eq_some_iff.mp h
    unfold Delivery.builtFor at hbuilt
    obtain ⟨sender,-,hbuilt⟩ := Option.bind_eq_some_iff.mp hbuilt
    obtain ⟨attachments,-,hbuilt⟩ := Option.bind_eq_some_iff.mp hbuilt
    obtain ⟨built,-,hbuilt⟩ := Option.bind_eq_some_iff.mp hbuilt
    obtain ⟨rfl,-⟩ := Prod.mk.inj (Option.some.inj hbuilt)
    rfl
  · exact absurd h nofun

/-- What is submitted of a message with parameters is wrapped. -/
theorem wrapped_of_pgp {message : Smtp.SendableMessage} {inner : List UInt8} {pgp : PgpSendParams}
    (hpgp : message.pgp = some pgp) :
    ∀ s ∈ Delivery.submittedOf weather (some (message,inner)), WrappedAs (some pgp) s := by
  intro s hs
  have hs' : s ∈ ((Delivery.wired weather 2 inner message.pgp).toOption.map
      (fun bytes => (⟨message,bytes⟩ : Submission))).toList := hs
  rw [hpgp,Option.mem_toList,Option.map_eq_some_iff] at hs'
  obtain ⟨bytes,hbytes,rfl⟩ := hs'
  simp only [Delivery.wired] at hbytes
  cases hwrap : wrapPgpMime ("----pgpboundary" ++ (weather (.drawUuid 2)).uuid) inner pgp with
  | error e =>
    rw [hwrap] at hbytes
    exact absurd hbytes nofun
  | ok wrapped =>
    rw [hwrap] at hbytes
    exact ⟨pgp,_,inner,wrapped,rfl,hpgp,hwrap,(Option.some.inj hbytes).symm⟩

/-- An attempt at a mail queued with PGP parameters submits nothing but what they ask for exactly
if the stored JSON parses, or it does not get as far as a message. -/
theorem fails_closed_iff (hqueued : entry.pgpJson = some json) :
    StaysWrapped env entry w ((Delivery.processEntry env entry).exec weather w).2 ↔
      (env.pgpFromJson json).isSome ∨ Delivery.prepared env weather w entry = none := by
  have hstored : storedPgp env entry = env.pgpFromJson json := by
    unfold storedPgp
    rw [hqueued]
    rfl
  have hnew : ((Delivery.processEntry env entry).exec weather w).2.submissions.drop
      w.submissions.length =
        Delivery.submittedOf weather (Delivery.prepared env weather w entry) := by
    unfold MailTask.exec
    rw [Delivery.run_processEntry,List.drop_left]
  unfold StaysWrapped
  rw [hnew]
  cases hp : Delivery.prepared env weather w entry with
  | none => exact ⟨fun _ => Or.inr rfl,fun _ s hs => absurd hs List.not_mem_nil⟩
  | some built =>
    obtain ⟨message,inner⟩ := built
    have hpgp := prepared_pgp hp
    rw [hstored] at hpgp ⊢
    cases hjson : env.pgpFromJson json with
    | none =>
      -- the mail is taken for one without parameters, and goes out as it has been built
      rw [hjson] at hpgp
      refine ⟨fun h => ?_,fun h => ?_⟩
      · obtain ⟨pgp,_,_,_,hsome,-⟩ := h ⟨message,inner⟩ (by
          show _ ∈ ((Delivery.wired weather 2 inner message.pgp).toOption.map _).toList
          rw [hpgp]
          exact List.mem_singleton_self _)
        exact absurd hsome nofun
      · rcases h with h | h
        · exact absurd h nofun
        · exact absurd h nofun
    | some pgp =>
      rw [hjson] at hpgp
      exact ⟨fun _ => Or.inl rfl,fun _ => wrapped_of_pgp hpgp⟩

end Attempts

/-! ### Samples -/

/-- Stored parameters, and what an older version has stored, without `micalg`. -/
def encryptJson : String :=
  "\x7b\"mode\":\"encrypt\",\"signature\":null,\"ciphertext\":\"c2VjcmV0\"," ++
    "\"micalg\":\"pgp-sha256\"\x7d"

def olderJson : String := "\x7b\"mode\":\"encrypt\",\"signature\":null,\"ciphertext\":\"c2VjcmV0\"\x7d"

def queuedPgp (json : String) : OutboxEntry := { (plainEntry "e").row 0 with pgpJson := some json }

/-- A site at which these parameters parse. -/
def encryptingSite : MailEnv :=
  { plainSite with
    pgpFromJson := fun json =>
      if json = encryptJson then some ⟨.encrypt,none,some "c2VjcmV0","pgp-sha256"⟩ else none }

theorem fails_closed_iff_encrypted :
    StaysWrapped encryptingSite (queuedPgp encryptJson) freshMail
        ((Delivery.processEntry encryptingSite (queuedPgp encryptJson)).exec
          (fun _ => placid) freshMail).2 ↔
      (encryptingSite.pgpFromJson encryptJson).isSome ∨
        Delivery.prepared encryptingSite (fun _ => placid) freshMail (queuedPgp encryptJson) = none :=
  fails_closed_iff rfl

/-- A mail queued with PGP parameters that goes out as it is. -/
theorem older_entry_sent_plain :
    (queuedPgp olderJson).pgpJson = some olderJson ∧
      ¬StaysWrapped encryptingSite (queuedPgp olderJson) freshMail
        ((Delivery.processEntry encryptingSite (queuedPgp olderJson)).exec (fun _ => placid) freshMail).2 := by
  refine ⟨rfl,fun h => ?_⟩
  have hsent : ((Delivery.processEntry encryptingSite (queuedPgp olderJson)).exec
      (fun _ => placid) freshMail).2.submissions.drop freshMail.submissions.length ≠ [] := by
    unfold MailTask.exec
    rw [Delivery.run_processEntry,List.drop_left]
    decide
  obtain ⟨s,hs⟩ := List.exists_mem_of_ne_nil _ hsent
  obtain ⟨pgp,_,_,_,hsome,-⟩ := h s hs
  have hnone : storedPgp encryptingSite (queuedPgp olderJson) = none := by decide
  exact absurd (hnone.symm.trans hsome) nofun

end Rav

import Rav.Pages
import Rav.Runs
import Rav.Search.Engine

/-!
# The index over whole runs

Messages are indexed one by one and in batches, indexed anew and deleted, and a write may fail before or after
its commit. What is found is what was indexed last under a folder and a UID and has not been deleted since,
and the pages of a search part it: each message found is on one page, once.

## Main definitions

- `IndexEvent` — the writes
- `IndexWrite`, `IndexEvent.writes` — what a write comes to
- `IndexWrite.Replaces` — it leaves nothing of a document
-/

namespace Rav

inductive IndexEvent
  | index (msg : IndexableMessage) (fault : Option IndexFault)
  | batch (messages : List IndexableMessage) (fault : Option IndexFault)
  | delete (uid : Nat) (folder : String) (fault : Option IndexFault)

def IndexEvent.step (docs : List IndexableMessage) : IndexEvent → Option (List IndexableMessage)
  | .index msg fault => some (indexMessage msg fault docs).2
  | .batch messages fault => some (indexMessagesBatch messages fault docs).2
  | .delete uid folder fault => some (deleteDocument uid folder fault docs).2

/-- A document is put into the index, or the documents of a message are taken out. -/
inductive IndexWrite
  | put (msg : IndexableMessage)
  | drop (uid : Nat) (folder : String)

def IndexWrite.Replaces (d : IndexableMessage) : IndexWrite → Prop
  | .put msg => msg.uid = d.uid ∧ msg.folder = d.folder
  | .drop uid folder => uid = d.uid ∧ folder = d.folder

/-- A write comes to its commit. -/
def committed (adds : Bool) : Option IndexFault → Bool
  | none => true
  | some (.writer _) => false
  | some (.addDocument _) => !adds
  | some (.commit _) => false
  | some (.reload _) => true

/-- What an event writes, if it comes to its commit. -/
def IndexEvent.writes : IndexEvent → List IndexWrite
  | .index msg fault => if committed true fault then [.put msg] else []
  | .batch messages fault => if committed (!messages.isEmpty) fault then messages.map .put else []
  | .delete uid folder fault => if committed false fault then [.drop uid folder] else []

def IndexWrite.apply (docs : List IndexableMessage) : IndexWrite → List IndexableMessage
  | .put msg => replaceDocument docs msg
  | .drop uid folder => deleteExisting docs uid folder

/-! ### What is in the index -/

def IndexableMessage.key (d : IndexableMessage) : Nat × String := (d.uid,d.folder)

variable {docs : List IndexableMessage} {d : IndexableMessage} {ws : List IndexWrite} {es : List IndexEvent}

theorem writeIndex_snd (failedCommit : String) (adds : Bool) (docs docs' : List IndexableMessage)
    (fault : Option IndexFault) :
    (writeIndex failedCommit adds docs docs' fault).2 = if committed adds fault then docs' else docs := by
  cases fault with
  | none => rfl
  | some f =>
    cases f with
    | addDocument e => cases adds <;> rfl
    | writer e => rfl
    | commit e => rfl
    | reload e => rfl

theorem mem_deleteExisting {uid : Nat} {folder : String} :
    d ∈ deleteExisting docs uid folder ↔ d ∈ docs ∧ ¬(uid = d.uid ∧ folder = d.folder) := by
  rw [deleteExisting, List.mem_filter, Bool.not_eq_true', Bool.and_eq_false_iff, decide_eq_false_iff_not,
    decide_eq_false_iff_not, ← not_and_or]
  refine and_congr_right fun _ => not_congr ?_
  rw [eq_comm, eq_comm (a := d.folder)]

theorem mem_apply {w : IndexWrite} : d ∈ w.apply docs ↔ w = .put d ∨ (d ∈ docs ∧ ¬w.Replaces d) := by
  cases w with
  | put msg =>
    show d ∈ deleteExisting docs msg.uid msg.folder ++ [msg] ↔ _
    rw [List.mem_append, List.mem_singleton, mem_deleteExisting, or_comm, IndexWrite.put.injEq, eq_comm]
    rfl
  | drop uid folder =>
    show d ∈ deleteExisting docs uid folder ↔ _
    rw [mem_deleteExisting, or_iff_right (nofun : ¬IndexWrite.drop uid folder = .put d)]
    rfl

theorem nodup_apply {w : IndexWrite} (h : (docs.map IndexableMessage.key).Nodup) :
    ((w.apply docs).map IndexableMessage.key).Nodup := by
  have hdelete : ∀ uid folder, ((deleteExisting docs uid folder).map IndexableMessage.key).Nodup :=
    fun uid folder => h.sublist (List.filter_sublist.map _)
  cases w with
  | drop uid folder => exact hdelete uid folder
  | put msg =>
    show ((deleteExisting docs msg.uid msg.folder ++ [msg]).map IndexableMessage.key).Nodup
    rw [List.map_append, List.nodup_append]
    refine ⟨hdelete msg.uid msg.folder, List.nodup_singleton _, ?_⟩
    intro k hk k' hk' heq
    obtain ⟨d, hd, rfl⟩ := List.mem_map.mp hk
    rw [List.mem_singleton.mp hk'] at heq
    obtain ⟨huid, hfolder⟩ := Prod.mk.inj heq
    exact (mem_deleteExisting.mp hd).2 ⟨huid.symm, hfolder.symm⟩

theorem mem_foldl_apply :
    d ∈ ws.foldl IndexWrite.apply [] ↔ Since (· = .put d) (IndexWrite.Replaces d) ws := by
  induction ws using List.reverseRecOn with
  | nil => exact iff_of_false List.not_mem_nil since_nil
  | append_singleton ws w ih =>
    rw [List.foldl_append, List.foldl_cons, List.foldl_nil, mem_apply, ih, since_snoc]

theorem nodup_foldl_apply : ((ws.foldl IndexWrite.apply []).map IndexableMessage.key).Nodup := by
  induction ws using List.reverseRecOn with
  | nil => exact List.nodup_nil
  | append_singleton ws w ih =>
    rw [List.foldl_append, List.foldl_cons, List.foldl_nil]
    exact nodup_apply ih

theorem step_writes (docs : List IndexableMessage) (e : IndexEvent) :
    e.step docs = some (e.writes.foldl IndexWrite.apply docs) := by
  cases e with
  | index msg fault =>
    rw [IndexEvent.step, indexMessage, writeIndex_snd, IndexEvent.writes]
    split
    · rfl
    · rfl
  | batch messages fault =>
    rw [IndexEvent.step, indexMessagesBatch, writeIndex_snd, IndexEvent.writes]
    split
    · rw [List.foldl_map]
      rfl
    · rfl
  | delete uid folder fault =>
    rw [IndexEvent.step, deleteDocument, writeIndex_snd, IndexEvent.writes]
    split
    · rfl
    · rfl

theorem docs_run (h : Run IndexEvent.step (fun _ _ => True) [] es docs) :
    docs = (es.flatMap IndexEvent.writes).foldl IndexWrite.apply [] := by
  refine h.foldl_writes (f := id) ?_
  intro docs e docs' hstep
  rw [step_writes] at hstep
  exact (Option.some.inj hstep).symm

/-! ### The pages of a search -/

/-- How the documents found are ranked, and what is shown of them, does not depend on the page asked for. -/
structure SearchEngine.PagesAlike (e : SearchEngine) : Prop where
  rank : ∀ q limit offset docs, e.rank { q with limit := limit, offset := offset } docs = e.rank q docs
  snippet : ∀ q limit offset d, e.snippet { q with limit := limit, offset := offset } d = e.snippet q d

/-- In every run: the pages of a search part a list of the documents that the query finds among those indexed
last under their folder and UID and not deleted since, each once; and the number of results is that of this
list. -/
theorem search_run (h : Run IndexEvent.step (fun _ _ => True) [] es docs) {e : SearchEngine} (he : e.PagesAlike)
    {q : SearchQuery} (hq : (e.clauses q).isSome = true) {size : Nat} (hsize : 0 < size) :
    ∃ hits : List IndexableMessage, (hits.map IndexableMessage.key).Nodup ∧
      (∀ d, d ∈ hits ↔
        Since (· = .put d) (IndexWrite.Replaces d) (es.flatMap IndexEvent.writes) ∧ e.Finds q d) ∧
      (∀ d ∈ hits, ∃ page, d ∈ slice page size hits) ∧
      ∀ page, e.search docs { q with limit := size, offset := page * size } =
        some ((slice page size hits).map (fun d => ⟨d.uid,d.folder,e.snippet q d⟩),hits.length) := by
  obtain ⟨cs, hcs⟩ := Option.isSome_iff_exists.mp hq
  have hdocs := docs_run h
  have hperm := e.rank_perm q (docs.filter (fun d => cs.all (fun c => c d)))
  refine ⟨e.rank q (docs.filter (fun d => cs.all (fun c => c d))), ?_, fun d => ?_, ?_, fun page => ?_⟩
  · rw [(hperm.map _).nodup_iff, hdocs]
    exact nodup_foldl_apply.sublist (List.filter_sublist.map _)
  · rw [hperm.mem_iff, List.mem_filter, hdocs, mem_foldl_apply, List.all_eq_true]
    refine and_congr_right fun _ => ?_
    constructor
    · exact fun hall => ⟨cs, hcs, hall⟩
    · rintro ⟨cs', hcs', hall⟩
      rwa [Option.some.inj (hcs.symm.trans hcs')]
  · intro d hd
    obtain ⟨page, -, hpage⟩ := exists_mem_slice le_rfl hsize hd
    exact ⟨page, hpage⟩
  · have hclauses : e.clauses { q with limit := size, offset := page * size } = some cs := hcs
    have hpage : ∀ l : List IndexableMessage,
        (l.take (page * size + size)).drop (page * size) = slice page size l := by
      intro l
      rw [List.drop_take, Nat.add_sub_cancel_left, slice]
    have hsnippet : e.snippet { q with limit := size, offset := page * size } = e.snippet q :=
      funext (he.snippet q size (page * size))
    unfold SearchEngine.search
    rw [hclauses, Option.bind_eq_bind, Option.bind_some]
    dsimp only
    rw [he.rank, hpage, hsnippet, hperm.length_eq]

/-- A library that finds a text where it is the whole subject. -/
def plainEngine : SearchEngine where
  parseQuery _ text := some (fun d => d.subject = text)
  rank _ docs := docs
  rank_perm _ docs := .refl docs
  snippet _ d := d.subject

/-- A message is indexed, indexed anew in a batch whose commit fails, and then in one that cannot be reloaded;
another is deleted. -/
def indexedAnew : List IndexEvent :=
  [.index ⟨1,"INBOX","Plans","","","","",0,false⟩ none,
    .batch [⟨1,"INBOX","Lost","","","","",0,false⟩] (some (.commit "disk full")),
    .batch [⟨1,"INBOX","Plan","","","","",0,false⟩,⟨2,"INBOX","Plan","","","","",0,false⟩]
      (some (.reload "no reader")),
    .delete 2 "INBOX" none]

theorem search_run_indexedAnew : ∃ docs, ∃ hits : List IndexableMessage,
    Run IndexEvent.step (fun _ _ => True) [] indexedAnew docs ∧ ⟨1,"INBOX","Plan","","","","",0,false⟩ ∈ hits ∧
    plainEngine.search docs ⟨"Plan",none,none,none,none,none,none,none,1,0⟩ =
      some ((slice 0 1 hits).map (fun d => ⟨d.uid,d.folder,d.subject⟩),hits.length) := by
  have hv : (execWhere IndexEvent.step (fun _ _ => True) [] indexedAnew).map id =
      some [⟨1,"INBOX","Plan","","","","",0,false⟩] := by
    decide +kernel
  obtain ⟨docs, hrun, hdocs⟩ := run_of_map_execWhere hv
  have hq : (plainEngine.clauses ⟨"Plan",none,none,none,none,none,none,none,1,0⟩).isSome = true := rfl
  obtain ⟨hits, -, hmem, -, hpages⟩ :=
    search_run hrun (e := plainEngine) ⟨fun _ _ _ _ => rfl, fun _ _ _ _ => rfl⟩ hq Nat.one_pos
  refine ⟨docs, hits, hrun, (hmem _).mpr ⟨?_, _, rfl, by decide⟩, hpages 0⟩
  rw [← mem_foldl_apply, ← docs_run hrun, show docs = _ from hdocs]
  exact List.mem_cons_self

end Rav

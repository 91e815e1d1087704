import Rav.Db.Folders
import Rav.Search.Query

/-!
# `db::messages::search_messages_sqlite`

The search over the header columns: a `WHERE` clause of one condition for each filter, with user
text as it is in the pattern of a `LIKE`.

## Main definitions

- `SearchFilters`, `Filter.condition` — the filters, and the condition of each
- `Db.searchMessagesSqlite` — the newest rows that meet all conditions
-/

namespace Rav

/-- The filters of the search over the header columns. -/
structure SearchFilters where
  folder : Option String
  from_ : Option String
  to_ : Option String
  dateFrom : Option Int
  dateTo : Option Int
  hasAttachment : Option Bool
  isRead : Option Bool
  isFlagged : Option Bool
  deriving DecidableEq, Repr

def SearchFilters.filters (f : SearchFilters) : List Filter :=
  (f.folder.map .folder).toList ++ (f.from_.map .from_).toList ++ (f.to_.map .to_).toList ++
    (f.dateFrom.map .dateFrom).toList ++ (f.dateTo.map .dateTo).toList ++
    (f.hasAttachment.map .hasAttachment).toList ++ (f.isRead.map .isRead).toList ++
    (f.isFlagged.map .isFlagged).toList

/-- The condition of a filter on a row; there is none on the subject alone, and none for
`is_flagged = false`. -/
def Filter.condition : Filter → CachedMessage → Bool
  | .folder f, m => m.folder = f
  | .from_ f, m =>
    if f.toList.contains '@' then m.fromAddress = f else sqlLike (anywhere f) m.fromName
  | .to_ t, m => sqlLike (anywhere t) m.toAddresses
  | .subject _, _ => true
  | .dateFrom df, m => df ≤ m.dateEpoch
  | .dateTo dt, m => m.dateEpoch ≤ dt
  | .hasAttachment ha, m => m.hasAttachments = ha
  | .isRead true, m => sqlLike (anywhere "\\Seen") m.flags
  | .isRead false, m => !sqlLike (anywhere "\\Seen") m.flags
  | .isFlagged true, m => sqlLike (anywhere "\\Flagged") m.flags
  | .isFlagged false, _ => true

/-- SQL `LOWER`. -/
def sqlLower (s : String) : String := String.ofList (s.toList.map Char.toLower)

/-- The `WHERE` clause. -/
def sqlSelects (text : String) (f : SearchFilters) (m : CachedMessage) : Bool :=
  !(["trash","spam","junk"].contains (sqlLower m.folder)) &&
    (text = "" ||
      [m.subject,m.fromName,m.fromAddress,m.toAddresses].any (sqlLike (anywhere text))) &&
    f.filters.all (fun g => g.condition m)

/-- `ORDER BY date_epoch DESC LIMIT limit`. -/
def Db.searchMessagesSqlite (db : Db) (text : String) (f : SearchFilters) (limit : Nat) :
    List CachedMessage :=
  ((db.messages.rows.filter (sqlSelects text f)).insertionSort
    (fun a b => b.dateEpoch ≤ a.dateEpoch)).take limit

section

variable {db : Db} {text : String} {f : SearchFilters} {m : CachedMessage}

theorem sqlSelects_iff : sqlSelects text f m = true ↔
    sqlLower m.folder ∉ ["trash","spam","junk"] ∧
      (text = "" ∨ ∃ column ∈ [m.subject,m.fromName,m.fromAddress,m.toAddresses],
        sqlLike (anywhere text) column = true) ∧
      ∀ g ∈ f.filters, g.condition m = true := by
  simp only [sqlSelects,Bool.and_eq_true,Bool.not_eq_true',Bool.or_eq_true,decide_eq_true_iff,
    List.any_eq_true,List.all_eq_true,and_assoc,List.contains_eq_mem,decide_eq_false_iff_not]

theorem Db.mem_searchMessagesSqlite {limit : Nat} (h : m ∈ db.searchMessagesSqlite text f limit) :
    m ∈ db.messages.rows ∧ sqlSelects text f m = true :=
  List.mem_filter.mp ((List.mem_insertionSort _).mp (List.mem_of_mem_take h))

/-- With room for all rows, all that meet the conditions are found. -/
theorem Db.mem_searchMessagesSqlite_of_length_le {limit : Nat} (hm : m ∈ db.messages.rows)
    (hsel : sqlSelects text f m = true) (hlimit : db.messages.rows.length ≤ limit) :
    m ∈ db.searchMessagesSqlite text f limit := by
  have hlen : ((db.messages.rows.filter (sqlSelects text f)).insertionSort
      (fun a b => b.dateEpoch ≤ a.dateEpoch)).length ≤ limit := by
    rw [List.length_insertionSort]
    exact (List.length_filter_le _ _).trans hlimit
  unfold Db.searchMessagesSqlite
  rw [List.take_of_length_le hlen]
  exact (List.mem_insertionSort _).mpr (List.mem_filter.mpr ⟨hm,hsel⟩)

theorem Db.length_searchMessagesSqlite_le (limit : Nat) :
    (db.searchMessagesSqlite text f limit).length ≤ db.messages.rows.length := by
  unfold Db.searchMessagesSqlite
  refine (List.length_take_le' _ _).trans ?_
  rw [List.length_insertionSort]
  exact List.length_filter_le _ _

end

end Rav

import Rav.Lru

/-!
# `db::pool`

One pool of connections for each user's database, made on first access and kept in a map that evicts the
least recently used. The file system and the pool builder answer as they like; what they answer to a call
is part of the event, as is the order in which the map is gone through.

## Main definitions

- `DbPoolManager`, with `getPool` and `evictIdle`
- `DbPoolEvent`, `DbPoolManager.step` — requests for pools and sweeps
- `pools_run` — at most `maxUsers` pools, each of its user's file, kept while in use
-/

namespace Rav

/-- A pool of connections to one file; every pool that is built is another. -/
structure SqlitePool where
  path : String
  maxSize : Nat
  id : Nat
  deriving DecidableEq, Repr

/-- A pool and its `last_accessed`. -/
abbrev PoolEntry := LruEntry SqlitePool

structure DbPoolManager where
  dataDir : String
  maxConnectionsPerUser : Nat
  idleTimeout : Nat
  maxUsers : Nat
  pools : DashMap String PoolEntry

/-- `Path::join`: an absolute path replaces the directory. -/
def pathJoin (dir file : String) : String :=
  if file.toList.head? = some '/' ∨ dir = "" then file
  else if dir.toList.getLast? = some '/' then dir ++ file
  else dir ++ "/" ++ file

/-- What creating a directory and building a pool of a size for a file come to. -/
structure PoolHost where
  createDirAll : String → Except String Unit
  build : String → Nat → Except String Nat

namespace DbPoolManager

def new (dataDir : String) (maxConnectionsPerUser idleTimeout maxUsers : Nat) : DbPoolManager :=
  ⟨dataDir,maxConnectionsPerUser,idleTimeout,maxUsers,DashMap.new⟩

variable (m : DbPoolManager)

def dbPath (userHash : String) : String := pathJoin (pathJoin m.dataDir userHash) "db.sqlite"

/-- The pool of a user. At capacity the least recently used one goes first, even if the new one cannot be
built. -/
def getPool (host : PoolHost) (order : List (String × PoolEntry)) (now : Nat) (userHash : String) :
    Except String SqlitePool × DbPoolManager :=
  match m.pools.get userHash with
  | some entry =>
    (.ok entry.value,{ m with pools := m.pools.modify userHash (fun e => { e with lastUsed := now }) })
  | none =>
    let pools :=
      if m.maxUsers ≤ m.pools.iter.length then
        match order.argmin (fun e => e.2.lastUsed) with
        | some lru => m.pools.remove lru.1
        | none => m.pools
      else m.pools
    match host.createDirAll (pathJoin m.dataDir userHash) with
    | .error e => (.error ("Failed to create db dir: " ++ e),{ m with pools := pools })
    | .ok () =>
      match host.build (m.dbPath userHash) m.maxConnectionsPerUser with
      | .error e => (.error ("Failed to build connection pool: " ++ e),{ m with pools := pools })
      | .ok id =>
        let pool : SqlitePool := ⟨m.dbPath userHash,m.maxConnectionsPerUser,id⟩
        (.ok pool,{ m with pools := pools.insert userHash ⟨pool,now⟩ })

/-- Drops any pool unused for longer than `idleTimeout`. -/
def evictIdle (now : Nat) : DbPoolManager :=
  { m with pools := m.pools.retain (fun _ e => if now - e.lastUsed < m.idleTimeout then some e else none) }

end DbPoolManager

inductive DbPoolEvent
  | getPool (host : PoolHost) (order : List (String × PoolEntry)) (now : Nat) (userHash : String)
  | evictIdle (now : Nat)

namespace DbPoolEvent

def time : DbPoolEvent → Nat
  | .getPool _ _ now _ => now
  | .evictIdle now => now

/-- The map is gone through in some order. -/
def Possible (m : DbPoolManager) : DbPoolEvent → Prop
  | .getPool _ order .. => order.Perm m.pools.iter
  | .evictIdle _ => True

instance (m : DbPoolManager) (e : DbPoolEvent) : Decidable (e.Possible m) :=
  match e with
  | .getPool _ order .. => inferInstanceAs (Decidable (order.Perm m.pools.iter))
  | .evictIdle _ => inferInstanceAs (Decidable True)

end DbPoolEvent

def DbPoolManager.step (m : DbPoolManager) : DbPoolEvent → Option DbPoolManager
  | .getPool host order now userHash => some (m.getPool host order now userHash).2
  | .evictIdle now => some (m.evictIdle now)

/-- Another user whose pool was asked for at the time `t` or later. -/
def RivalUsers (userHash : String) (t : Nat) (es : List DbPoolEvent) : Finset String :=
  (es.filterMap fun
    | .getPool _ _ now u => if u ≠ userHash ∧ t ≤ now then some u else none
    | .evictIdle _ => none).toFinset

/-! ### The map of pools -/

namespace DbPoolManager

variable {m m' : DbPoolManager} {es es' : List DbPoolEvent} {userHash : String}

/-- What is built for a user that has no pool. -/
def made (m : DbPoolManager) (host : PoolHost) (userHash : String) : Except String SqlitePool :=
  match host.createDirAll (pathJoin m.dataDir userHash) with
  | .error e => .error ("Failed to create db dir: " ++ e)
  | .ok () =>
    match host.build (m.dbPath userHash) m.maxConnectionsPerUser with
    | .error e => .error ("Failed to build connection pool: " ++ e)
    | .ok id => .ok ⟨m.dbPath userHash,m.maxConnectionsPerUser,id⟩

theorem getPool_eq (host : PoolHost) (order : List (String × PoolEntry)) (now : Nat) :
    (m.getPool host order now userHash).1.toOption =
        (Lru.use m.maxUsers order userHash now (m.made host userHash).toOption m.pools).1 ∧
      (m.getPool host order now userHash).2 = { m with
        pools := (Lru.use m.maxUsers order userHash now (m.made host userHash).toOption m.pools).2 } := by
  rw [getPool, Lru.use]
  cases m.pools.get userHash with
  | some entry => exact ⟨rfl, rfl⟩
  | none =>
    have hroom : Lru.makeRoom m.maxUsers order m.pools =
        if m.maxUsers ≤ m.pools.iter.length then
          match order.argmin (fun e => e.2.lastUsed) with
          | some lru => m.pools.remove lru.1
          | none => m.pools
        else m.pools := by
      rw [Lru.makeRoom]
      congr 1
      cases order.argmin (fun e => e.2.lastUsed) with
      | none => rfl
      | some lru => rfl
    rw [made]
    dsimp only
    rw [hroom]
    cases host.createDirAll (pathJoin m.dataDir userHash) with
    | error e => exact ⟨rfl, rfl⟩
    | ok u =>
      dsimp only
      cases host.build (m.dbPath userHash) m.maxConnectionsPerUser with
      | error e => exact ⟨rfl, rfl⟩
      | ok id => exact ⟨rfl, rfl⟩

/-- An event as the map of pools sees it. -/
def event (m : DbPoolManager) : DbPoolEvent → Lru.Event String SqlitePool
  | .getPool host order now userHash => .use order userHash now (m.made host userHash).toOption
  | .evictIdle now => .sweep now

/-- The settings do not change, and the map steps as a map of least recently used pools. -/
theorem step_eq {e : DbPoolEvent} (h : m.step e = some m') :
    m' = { m with pools := (m.event e).apply m.maxUsers m.idleTimeout m.pools } := by
  cases e with
  | getPool host order now userHash =>
    obtain rfl := Option.some.inj h
    exact (getPool_eq host order now).2
  | evictIdle now =>
    obtain rfl := Option.some.inj h
    rfl

/-- Settings apart. -/
def Configured (m₀ m : DbPoolManager) : Prop := m = { m₀ with pools := m.pools }

theorem event_eq {m₀ : DbPoolManager} (h : m₀.Configured m) (e : DbPoolEvent) : m.event e = m₀.event e := by
  rw [Configured] at h
  rw [h]
  cases e <;> rfl

/-- A run of the manager is a run of its map. -/
theorem lru_run {m₀ : DbPoolManager} (h : Run step (fun m e => e.Possible m) m₀ es m) :
    m₀.Configured m ∧ Run (Lru.step m₀.maxUsers m₀.idleTimeout) Lru.Event.Possible m₀.pools
      (es.map m₀.event) m.pools := by
  induction h with
  | nil => exact ⟨rfl, .nil _⟩
  | @snoc s t es e hrun he hst ih =>
    obtain ⟨hconf, hrun'⟩ := ih
    have hstep := step_eq hst
    rw [event_eq hconf] at hstep
    have hmax : s.maxUsers = m₀.maxUsers := by rw [hconf]
    have hidle : s.idleTimeout = m₀.idleTimeout := by rw [hconf]
    rw [hmax, hidle] at hstep
    constructor
    · rw [Configured, hstep]
      rw [Configured] at hconf
      rw [hconf]
    · rw [List.map_append]
      refine .snoc hrun' ?_ ?_
      · cases e with
        | getPool => exact he
        | evictIdle => exact trivial
      · rw [hstep]
        rfl

theorem time_event (m₀ : DbPoolManager) : Lru.Event.time ∘ m₀.event = DbPoolEvent.time := by
  funext e
  cases e <;> rfl

theorem rivals_eq (m₀ : DbPoolManager) (t : Nat) :
    Lru.Rivals userHash t (es.map m₀.event) = RivalUsers userHash t es := by
  rw [Lru.Rivals, RivalUsers, List.filterMap_map]
  congr 2
  funext e
  cases e <;> rfl

end DbPoolManager

/-- In every run of requests and sweeps: no more than `maxUsers` pools are held, one at least; a pool that is
held for a user is on that user's file; and while fewer than `maxUsers` other users have been served since a
user's last request, and no sweep has found the user idle, the user's next request gets the same pool. -/
theorem pools_run {dataDir : String} {maxConnections idleTimeout maxUsers : Nat} {es : List DbPoolEvent}
    {m : DbPoolManager} (h : Run DbPoolManager.step (fun m e => e.Possible m)
      (.new dataDir maxConnections idleTimeout maxUsers) es m) :
    m.pools.iter.length ≤ max 1 maxUsers ∧
      ∀ userHash entry, m.pools.get userHash = some entry →
        entry.value.path = pathJoin (pathJoin dataDir userHash) "db.sqlite" ∧
        ∀ es' m', Run DbPoolManager.step (fun m e => e.Possible m) m es' m' →
          ((es ++ es').map DbPoolEvent.time).Pairwise (· ≤ ·) →
          (∀ now, DbPoolEvent.evictIdle now ∈ es' → now - entry.lastUsed < idleTimeout) →
          (RivalUsers userHash entry.lastUsed (es ++ es')).card < max 1 maxUsers →
          ∀ host order now, (m'.getPool host order now userHash).1 = .ok entry.value := by
  obtain ⟨hconf, hrun⟩ := DbPoolManager.lru_run h
  have hcard := Lru.card_held_run hrun
  rw [Lru.card_held] at hcard
  refine ⟨hcard, fun userHash entry hentry => ⟨?_, ?_⟩⟩
  · obtain ⟨⟨order, now, hmade⟩, -⟩ := Lru.made_run hrun hentry
    obtain ⟨e, -, he⟩ := List.mem_map.mp hmade
    cases e with
    | evictIdle now => exact absurd he (by simp [DbPoolManager.event])
    | getPool host order' now' u =>
      obtain ⟨-, rfl, -, hvalue⟩ := Lru.Event.use.inj he
      rw [DbPoolManager.made] at hvalue
      split at hvalue
      · exact absurd hvalue (by simp [Except.toOption])
      split at hvalue
      · exact absurd hvalue (by simp [Except.toOption])
      · rw [← Option.some.inj hvalue]
        rfl
  · intro es' m' h' hclock hidle hrivals host order now
    have hrest : Run (Lru.step maxUsers idleTimeout) Lru.Event.Possible m.pools
        (es'.map (DbPoolManager.new dataDir maxConnections idleTimeout maxUsers).event) m'.pools := by
      obtain ⟨-, hrest⟩ := DbPoolManager.lru_run h'
      have hevents : es'.map m.event =
          es'.map (DbPoolManager.new dataDir maxConnections idleTimeout maxUsers).event :=
        List.map_congr_left (fun e _ => DbPoolManager.event_eq hconf e)
      have hmax : m.maxUsers = maxUsers := by rw [hconf]; rfl
      have hid : m.idleTimeout = idleTimeout := by rw [hconf]; rfl
      rwa [hevents, hmax, hid] at hrest
    have hsweeps : ∀ n, Lru.Event.sweep n ∈
        es'.map (DbPoolManager.new dataDir maxConnections idleTimeout maxUsers).event →
          n - entry.lastUsed < idleTimeout := by
      intro n hn
      obtain ⟨e, he, hsweep⟩ := List.mem_map.mp hn
      cases e with
      | getPool => exact absurd hsweep (by simp [DbPoolManager.event])
      | evictIdle n' =>
        obtain rfl := Lru.Event.sweep.inj hsweep
        exact hidle n' he
    rw [← DbPoolManager.time_event (.new dataDir maxConnections idleTimeout maxUsers), ← List.map_map,
      List.map_append] at hclock
    rw [← DbPoolManager.rivals_eq (.new dataDir maxConnections idleTimeout maxUsers), List.map_append]
      at hrivals
    obtain ⟨y, hy, hvalue, -⟩ := Lru.kept_run hrun hentry hrest hclock hsweeps hrivals
    rw [DbPoolManager.getPool, hy]
    exact congrArg Except.ok hvalue

/-- Everything can be created; the builds are told apart by the length of the path. -/
def sampleHost : PoolHost where
  createDirAll _ := .ok ()
  build path _ := .ok path.length

/-- Room for two: the first user's pool outlasts a sweep and a request of the second. -/
theorem pools_run_two :
    ∃ m m', Run DbPoolManager.step (fun m e => e.Possible m) (.new "data" 4 600 2)
        [.getPool sampleHost [] 10 "abc123"] m ∧
      Run DbPoolManager.step (fun m e => e.Possible m) m
        [.evictIdle 60,.getPool sampleHost [("abc123",⟨⟨"data/abc123/db.sqlite",4,21⟩,10⟩)] 70 "def4567"] m' ∧
      (m'.getPool sampleHost [] 100 "abc123").1 = .ok ⟨"data/abc123/db.sqlite",4,21⟩ := by
  have hv : (execWhere DbPoolManager.step (fun m e => e.Possible m) (.new "data" 4 600 2)
      [.getPool sampleHost [] 10 "abc123"]).map (fun m => (m.pools.get "abc123",
        (execWhere DbPoolManager.step (fun m e => e.Possible m) m [.evictIdle 60,.getPool sampleHost
          [("abc123",⟨⟨"data/abc123/db.sqlite",4,21⟩,10⟩)] 70 "def4567"]).isSome)) =
      some (some ⟨⟨"data/abc123/db.sqlite",4,21⟩,10⟩,true) := by
    decide +kernel
  obtain ⟨m, hrun, hl⟩ := run_of_map_execWhere hv
  obtain ⟨hentry, hsome⟩ := Prod.mk.inj hl
  obtain ⟨m', hm'⟩ := Option.isSome_iff_exists.mp hsome
  have hrun' := run_of_execWhere hm'
  refine ⟨m, m', hrun, hrun', ?_⟩
  apply ((pools_run hrun).2 "abc123" _ hentry).2 _ m' hrun'
  · decide
  · intro now hnow
    have hnow : now = 60 := by simpa using hnow
    rw [hnow]
    decide
  · decide

end Rav

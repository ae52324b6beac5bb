import Tabula.RowStore

/-!
# Running actions

An action is a function of the surroundings and the world, so what it does is
an equation for `x s w`. The lemmas here say what the building blocks of actions do there :
`run_bind_ok` and `run_bind_error` go through a bind from the front, and `run_transaction` and
`run_query` are the database on a world whose storage is ready.

What an action changes is written with `World.withDatabase`, `World.withFolder`,
`Database.withRows` and `Database.withJobs`, which leave everything else as it is.
-/

namespace Tabula

/-- A world with another database, which is ready. -/
def World.withDatabase (w : World) (db : Database) : World := { w with storage := .ready db }

/-- A world with another folder of checkpoints. -/
def World.withFolder (w : World) (folder : Folder) : World := { w with folder := folder }

/-- A database with other rows. -/
def Database.withRows (db : Database) (rows : Store.Rows) : Database := { db with rows := rows }

/-- A database with other jobs. -/
def Database.withJobs (db : Database) (jobs : Ledger) : Database := { db with jobs := jobs }

section Frame

variable (w : World) (db : Database) (folder : Folder) (rows : Store.Rows) (jobs : Ledger)

@[simp] theorem storage_withDatabase : (w.withDatabase db).storage = .ready db := rfl

@[simp] theorem folder_withDatabase : (w.withDatabase db).folder = w.folder := rfl

@[simp] theorem storage_withFolder : (w.withFolder folder).storage = w.storage := rfl

@[simp] theorem folder_withFolder : (w.withFolder folder).folder = folder := rfl

@[simp] theorem rows_withRows : (db.withRows rows).rows = rows := rfl

@[simp] theorem jobs_withRows : (db.withRows rows).jobs = db.jobs := rfl

@[simp] theorem rows_withJobs : (db.withJobs jobs).rows = db.rows := rfl

@[simp] theorem jobs_withJobs : (db.withJobs jobs).jobs = jobs := rfl

theorem withDatabase_self {w : World} {db : Database} (h : w.storage = .ready db) :
    w.withDatabase db = w := by
  rw [World.withDatabase, ← h]

end Frame

/-- The day on which something happens. -/
def Surroundings.today (s : Surroundings) : Date :=
  Date.ofDays (s.now.micros.fdiv Moment.microsPerDay)

theorem ok_bind {ε α β : Type} (a : α) (f : α → Except ε β) : (.ok a >>= f) = f a := rfl

/-- A bind that gave an answer : so did both parts. -/
theorem ok_of_bind {ε α β : Type} {x : Except ε α} {f : α → Except ε β} {b : β}
    (h : (x >>= f) = .ok b) : ∃ a, x = .ok a ∧ f a = .ok b := by
  rcases x with _ | a
  · simp [bind, Except.bind] at h
  · exact ⟨a, rfl, h⟩

/-- A bind that fails : the first part does, or it gives an answer for which the second part does. -/
theorem bind_eq_error_iff {ε α β : Type} {x : Except ε α} {f : α → Except ε β} {e : ε} :
    (x >>= f) = .error e ↔ x = .error e ∨ ∃ a, x = .ok a ∧ f a = .error e := by
  rcases x with _ | a <;> simp [bind, Except.bind]

/-- Answers for all of a list : each one is the answer for an item. -/
theorem exists_of_mapM {ε α β : Type} {f : α → Except ε β} {xs : List α} {ys : List β}
    (h : xs.mapM f = .ok ys) : ∀ y ∈ ys, ∃ x ∈ xs, f x = .ok y := by
  induction xs generalizing ys with
  | nil =>
    obtain rfl := Except.ok.inj h
    simp
  | cons x xs ih =>
    rw [List.mapM_cons] at h
    obtain ⟨z, hz, h⟩ := ok_of_bind h
    obtain ⟨zs, hzs, h⟩ := ok_of_bind h
    obtain rfl := Except.ok.inj h
    intro y hy
    rcases List.mem_cons.mp hy with rfl | hy
    · exact ⟨x, List.mem_cons_self, hz⟩
    · obtain ⟨x, hx, hy⟩ := ih hzs y hy
      exact ⟨x, List.mem_cons_of_mem _ hx, hy⟩

theorem mapM_eq_ok {ε α β : Type} {f : α → Except ε β} {g : α → β} {xs : List α}
    (h : ∀ x ∈ xs, f x = .ok (g x)) : xs.mapM f = .ok (xs.map g) := by
  induction xs with
  | nil => rfl
  | cons x xs ih =>
    rw [List.mapM_cons, h x List.mem_cons_self, ih fun x hx => h x (List.mem_cons_of_mem _ hx)]
    rfl

end Tabula

namespace Tabula.Action

variable {α β : Type} {s : Surroundings} {w w' : World} {db db' : Database}

@[simp] theorem run_pure (a : α) : (Pure.pure a : Action α) s w = (.ok a, w) := rfl

theorem run_bind (x : Action α) (f : α → Action β) :
    (x >>= f) s w = match x s w with
      | (.ok a, w') => f a s w'
      | (.error e, w') => (.error e, w') := rfl

theorem run_bind_ok {x : Action α} {a : α} (h : x s w = (.ok a, w')) (f : α → Action β) :
    (x >>= f) s w = f a s w' := by
  rw [run_bind, h]

theorem run_bind_error {x : Action α} {e : Failure} (h : x s w = (.error e, w'))
    (f : α → Action β) : (x >>= f) s w = (.error e, w') := by
  rw [run_bind, h]

@[simp] theorem run_liftM (r : Except Failure α) : (liftM r : Action α) s w = (r, w) := rfl

@[simp] theorem run_throw (e : Failure) : (throw e : Action α) s w = (.error e, w) := rfl

@[simp] theorem run_attempt (x : Action α) :
    attempt x s w = (.ok (x s w).1, (x s w).2) := rfl

@[simp] theorem run_now : now s w = (.ok s.now, w) := rfl

@[simp] theorem run_today : today s w = (.ok s.today, w) := rfl

@[simp] theorem run_askFolder (f : Folder → Except Failure α) :
    askFolder f s w = (f w.folder, w) := rfl

theorem run_changeFolder (f : Folder → Except Failure Folder) :
    changeFolder f s w = match f w.folder with
      | .ok folder => (.ok (), w.withFolder folder)
      | .error e => (.error e, w) := rfl

/-! ## A database that is ready -/

theorem run_transaction (h : w.storage = .ready db)
    (f : Database → Except Failure (α × Database)) :
    transaction f s w = match f db with
      | .ok (a, db') => (.ok a, w.withDatabase db')
      | .error e => (.error e, w) := by
  unfold transaction
  simp only [h]
  rfl

theorem run_transaction_ok (h : w.storage = .ready db)
    {f : Database → Except Failure (α × Database)} {a : α} (hf : f db = .ok (a, db')) :
    transaction f s w = (.ok a, w.withDatabase db') := by
  rw [run_transaction h, hf]

theorem run_transaction_error (h : w.storage = .ready db)
    {f : Database → Except Failure (α × Database)} {e : Failure} (hf : f db = .error e) :
    transaction f s w = (.error e, w) := by
  rw [run_transaction h, hf]

/-- A question leaves the world as it is. -/
theorem run_query (h : w.storage = .ready db) (f : Database → Except Failure α) :
    query f s w = (f db, w) := by
  unfold query
  rw [run_transaction h]
  cases hf : f db with
  | error e => rfl
  | ok a => exact congrArg (Prod.mk _) (withDatabase_self h)

theorem run_rowStore_ok {action : RowAction} {x : Action α} {a : α}
    (h : x s w = (.ok a, w')) : rowStore action x s w = (.ok a, w') := by
  unfold rowStore
  rw [h]

theorem run_rowStore_error {action : RowAction} {x : Action α} {e : Failure}
    (h : x s w = (.error e, w')) :
    rowStore action x s w = (.error (asRowStore action e), w') := by
  unfold rowStore
  rw [h]

/-- A question of the row store, which the store may refuse. -/
theorem run_answered (h : w.storage = .ready db) (action : RowAction)
    (f : Database → Except Store.Refusal α) :
    rowStore action (query fun db => RowStore.answered action (f db)) s w =
      (RowStore.answered action (f db), w) := by
  rw [rowStore, run_query h]
  cases f db <;> rfl

end Tabula.Action

import Tabula.Proofs.Actions

/-!
# What actions leave in the database

An action that fails half way keeps what it did before, so what it leaves behind is stated for
both ends. `Action.IsQuiet` is an action that never touches what is stored, `Action.Leaves` says
what the database is like once an action has ended in one world, and `Action.Makes` how it is
related to the one before, whatever the world.

The lemmas go through an action from the front. `leaves_query_bind` and `leaves_lift_bind` hand on
what a question has answered; where a step fails, nothing has happened to the database yet.
-/

namespace Tabula.Action

variable {α β : Type} {s : Surroundings} {w w' : World} {db : Database}

/-- An action that leaves what is stored as it is. -/
def IsQuiet (x : Action α) : Prop := ∀ s w, (x s w).2.storage = w.storage

/-- Once the action has ended, well or not, the database is such. -/
def Leaves (Q : Database → Prop) (x : Action α) (s : Surroundings) (w : World) : Prop :=
  ∃ db, (x s w).2.storage = .ready db ∧ Q db

/-- Whatever the database is, it is so related to the one that the action leaves. -/
def Makes (R : Database → Database → Prop) (x : Action α) : Prop :=
  ∀ s w db, w.storage = .ready db → Leaves (R db) x s w

theorem run_query_bind {f : Database → Except Failure α} {a : α} (hw : w.storage = .ready db)
    (h : f db = .ok a) (k : α → Action β) : (query f >>= k) s w = k a s w :=
  run_bind_ok ((run_query hw f).trans (by rw [h])) k

theorem run_lift_bind {r : Except Failure α} {a : α} (h : r = .ok a) (k : α → Action β) :
    ((liftM r : Action α) >>= k) s w = k a s w :=
  run_bind_ok ((run_liftM r).trans (by rw [h])) k

/-- A bind that gave an answer : so did both parts. -/
theorem ok_of_run_bind {x : Action α} {f : α → Action β} {b : β}
    (h : (x >>= f) s w = (.ok b, w')) :
    ∃ a w₁, x s w = (.ok a, w₁) ∧ f a s w₁ = (.ok b, w') := by
  rcases hx : x s w with ⟨e | a, w₁⟩
  · rw [run_bind_error hx] at h
    cases h
  · rw [run_bind_ok hx] at h
    exact ⟨a, w₁, rfl, h⟩

theorem ok_of_query_bind {f : Database → Except Failure α} {k : α → Action β} {b : β}
    (hw : w.storage = .ready db) (h : (query f >>= k) s w = (.ok b, w')) :
    ∃ a, f db = .ok a ∧ k a s w = (.ok b, w') := by
  obtain ⟨a, w₁, hquery, h⟩ := ok_of_run_bind h
  rw [run_query hw] at hquery
  obtain ⟨ha, rfl⟩ := Prod.mk.inj hquery
  exact ⟨a, ha, h⟩

theorem ok_of_lift_bind {r : Except Failure α} {k : α → Action β} {b : β}
    (h : ((liftM r : Action α) >>= k) s w = (.ok b, w')) :
    ∃ a, r = .ok a ∧ k a s w = (.ok b, w') := by
  obtain ⟨a, w₁, hlift, h⟩ := ok_of_run_bind h
  rw [run_liftM] at hlift
  obtain ⟨ha, rfl⟩ := Prod.mk.inj hlift
  exact ⟨a, ha, h⟩

/-- A change that gave an answer. -/
theorem ok_of_transaction {f : Database → Except Failure (α × Database)} {a : α}
    (hw : w.storage = .ready db) (h : transaction f s w = (.ok a, w')) :
    ∃ db', f db = .ok (a, db') ∧ w' = w.withDatabase db' := by
  rcases hf : f db with e | ⟨a', db'⟩
  · rw [run_transaction_error hw hf] at h
    cases h
  · rw [run_transaction_ok hw hf] at h
    obtain ⟨ha, rfl⟩ := Prod.mk.inj h
    obtain rfl := Except.ok.inj ha
    exact ⟨db', rfl, rfl⟩

/-! ## Quiet actions -/

theorem isQuiet_pure (a : α) : IsQuiet (Pure.pure a : Action α) := fun _ _ => rfl

theorem isQuiet_lift (r : Except Failure α) : IsQuiet (liftM r : Action α) := fun _ _ => rfl

theorem isQuiet_throw (e : Failure) : IsQuiet (throw e : Action α) := fun _ _ => rfl

theorem isQuiet_now : IsQuiet now := fun _ _ => rfl

theorem isQuiet_newId (kind : String) : IsQuiet (newId kind) := fun _ _ => rfl

theorem isQuiet_stamp : IsQuiet stamp := fun _ _ => rfl

theorem isQuiet_ending (length : Nat) : IsQuiet (ending length) := fun _ _ => rfl

theorem isQuiet_askFolder (f : Folder → Except Failure α) : IsQuiet (askFolder f) :=
  fun _ _ => rfl

theorem isQuiet_bind {x : Action α} {f : α → Action β} (hx : IsQuiet x) (hf : ∀ a, IsQuiet (f a)) :
    IsQuiet (x >>= f) := by
  intro s w
  rcases h : x s w with ⟨e | a, w'⟩
  · rw [run_bind_error h, ← hx s w, h]
  · rw [run_bind_ok h, hf a s w', ← hx s w, h]

theorem isQuiet_ite {c : Prop} [Decidable c] {x y : Action α} (hx : IsQuiet x) (hy : IsQuiet y) :
    IsQuiet (if c then x else y) := by
  split
  · exact hx
  · exact hy

theorem isQuiet_rowStore (action : RowAction) {x : Action α} (hx : IsQuiet x) :
    IsQuiet (rowStore action x) := by
  intro s w
  rcases h : x s w with ⟨e | a, w'⟩
  · rw [run_rowStore_error h, ← hx s w, h]
  · rw [run_rowStore_ok h, ← hx s w, h]

theorem isQuiet_attempt {x : Action α} (hx : IsQuiet x) : IsQuiet (attempt x) := hx

theorem isQuiet_changeFolder (f : Folder → Except Failure Folder) : IsQuiet (changeFolder f) := by
  intro s w
  rw [run_changeFolder]
  split <;> rfl

theorem isQuiet_query (f : Database → Except Failure α) : IsQuiet (query f) := by
  intro s w
  rcases hw : w.storage with db | _ | _
  · rw [run_query hw, hw]
  all_goals
    simp only [query, transaction, hw]

theorem isQuiet_endings : ∀ n, IsQuiet (endings n)
  | 0 => isQuiet_pure []
  | n + 1 => isQuiet_bind (isQuiet_ending 6) fun _ =>
      isQuiet_bind (isQuiet_endings n) fun _ => isQuiet_pure _

theorem IsQuiet.storage_eq {x : Action α} (hx : IsQuiet x) {r : Except Failure α}
    (h : x s w = (r, w')) : w'.storage = w.storage := by
  rw [← hx s w, h]

/-! ## What one action leaves -/

section Leaves

variable {Q : Database → Prop}

theorem IsQuiet.leaves {x : Action α} (hx : IsQuiet x) (hw : w.storage = .ready db) (hQ : Q db) :
    Leaves Q x s w :=
  ⟨db, by rw [hx s w, hw], hQ⟩

theorem Leaves.mono {Q' : Database → Prop} {x : Action α} (hx : Leaves Q x s w)
    (h : ∀ db, Q db → Q' db) : Leaves Q' x s w :=
  hx.imp fun db hdb => ⟨hdb.1, h db hdb.2⟩

theorem leaves_of_eq {x : Action α} {r : Except Failure α} (h : x s w = (r, w'))
    (hw : w'.storage = .ready db) (hQ : Q db) : Leaves Q x s w :=
  ⟨db, by rw [h, hw], hQ⟩

theorem leaves_bind {x : Action α} {f : α → Action β} (hx : Leaves Q x s w)
    (hf : ∀ a w', x s w = (.ok a, w') → Leaves Q (f a) s w') : Leaves Q (x >>= f) s w := by
  rcases h : x s w with ⟨e | a, w'⟩
  · obtain ⟨db, hdb, hQ⟩ := hx
    rw [h] at hdb
    exact leaves_of_eq (run_bind_error h f) hdb hQ
  · obtain ⟨db, hdb, hQ⟩ := hf a w' h
    exact ⟨db, by rw [run_bind_ok h, hdb], hQ⟩

/-- A step that is quiet : what follows begins with the same database. -/
theorem IsQuiet.leaves_bind {x : Action α} {f : α → Action β} (hx : IsQuiet x)
    (hw : w.storage = .ready db) (hQ : Q db)
    (hf : ∀ a w', x s w = (.ok a, w') → w'.storage = .ready db → Leaves Q (f a) s w') :
    Leaves Q (x >>= f) s w := by
  refine Action.leaves_bind (hx.leaves hw hQ) fun a w' h => hf a w' h ?_
  rw [← hw, ← hx s w, h]

/-- A step that only answers hands its answer on. -/
theorem leaves_bind_of_run {x : Action α} {r : Except Failure α} {k : α → Action β}
    (hrun : x s w = (r, w)) (hw : w.storage = .ready db) (hQ : Q db)
    (hk : ∀ a, r = .ok a → Leaves Q (k a) s w) : Leaves Q (x >>= k) s w := by
  rcases r with e | a
  · exact leaves_of_eq (run_bind_error hrun k) hw hQ
  · obtain ⟨db', hdb', hQ'⟩ := hk a rfl
    exact ⟨db', by rw [run_bind_ok hrun, hdb'], hQ'⟩

theorem leaves_query_bind {f : Database → Except Failure α} {k : α → Action β}
    (hw : w.storage = .ready db) (hQ : Q db) (hk : ∀ a, f db = .ok a → Leaves Q (k a) s w) :
    Leaves Q (query f >>= k) s w :=
  leaves_bind_of_run (run_query hw f) hw hQ hk

theorem leaves_lift_bind {r : Except Failure α} {k : α → Action β} (hw : w.storage = .ready db)
    (hQ : Q db) (hk : ∀ a, r = .ok a → Leaves Q (k a) s w) :
    Leaves Q ((liftM r : Action α) >>= k) s w :=
  leaves_bind_of_run (run_liftM r) hw hQ hk

/-- A row store's question in front. -/
theorem leaves_lookup_bind {action : RowAction} {f : Database → Except Failure α}
    {k : α → Action β} (hw : w.storage = .ready db) (hQ : Q db)
    (hk : ∀ a, f db = .ok a → Leaves Q (k a) s w) :
    Leaves Q (rowStore action (query f) >>= k) s w := by
  have hrun := run_query (s := s) hw f
  rcases hf : f db with e | a <;> rw [hf] at hrun
  · exact leaves_bind_of_run (run_rowStore_error hrun) hw hQ nofun
  · refine leaves_bind_of_run (run_rowStore_ok hrun) hw hQ fun a' ha => ?_
    obtain rfl := Except.ok.inj ha
    exact hk a hf

theorem leaves_transaction {f : Database → Except Failure (α × Database)}
    (hw : w.storage = .ready db) (hQ : Q db) (hf : ∀ a db', f db = .ok (a, db') → Q db') :
    Leaves Q (transaction f) s w := by
  rcases h : f db with e | ⟨a, db'⟩
  · exact leaves_of_eq (run_transaction_error hw h) hw hQ
  · exact leaves_of_eq (run_transaction_ok hw h) rfl (hf a db' h)

theorem leaves_rowStore {action : RowAction} {x : Action α} (hx : Leaves Q x s w) :
    Leaves Q (rowStore action x) s w := by
  obtain ⟨db, hdb, hQ⟩ := hx
  rcases h : x s w with ⟨e | a, w'⟩ <;> rw [h] at hdb
  · exact leaves_of_eq (run_rowStore_error h) hdb hQ
  · exact leaves_of_eq (run_rowStore_ok h) hdb hQ

/-- What is left does not hang on the answer. -/
theorem leaves_map {x : Action α} {f : α → β} (hx : Leaves Q x s w) :
    Leaves Q (do return f (← x) : Action β) s w := by
  refine leaves_bind hx fun a w' h => ?_
  obtain ⟨db, hdb, hQ⟩ := hx
  rw [h] at hdb
  exact ⟨db, hdb, hQ⟩

end Leaves

/-! ## What an action makes of any database -/

section Makes

variable {R : Database → Database → Prop}

theorem IsQuiet.makes {x : Action α} (hx : IsQuiet x) (hrefl : ∀ db, R db db) : Makes R x :=
  fun _ _ db hw => hx.leaves hw (hrefl db)

theorem makes_bind {x : Action α} {f : α → Action β}
    (htrans : ∀ {db₁ db₂ db₃}, R db₁ db₂ → R db₂ db₃ → R db₁ db₃) (hx : Makes R x)
    (hf : ∀ a, Makes R (f a)) : Makes R (x >>= f) := by
  intro s w db hw
  obtain ⟨db', hdb', hR⟩ := hx s w db hw
  refine leaves_bind ⟨db', hdb', hR⟩ fun a w' h => ?_
  rw [h] at hdb'
  obtain ⟨db'', hdb'', hR'⟩ := hf a s w' db' hdb'
  exact ⟨db'', hdb'', htrans hR hR'⟩

theorem makes_attempt {x : Action α} (hx : Makes R x) : Makes R (attempt x) := hx

end Makes

end Tabula.Action

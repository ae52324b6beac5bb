import Tabula.Proofs.Edits

/-!
# Actions in two worlds

An action is run in two worlds whose databases are the same for an actor, with the same ids and
times to come (`World.AlikeFor`). It agrees if it gives the same answer in both, leaves worlds that
are alike again, and leaves what is not the actor's (`Action.Agrees`).

That an action agrees is shown from the front, by one lemma for each kind of step. A step may look
at the ids and times to come only (`agrees_blind_bind`), ask for something that is the same in both
databases (`agrees_query_bind`), or edit them in the same way (`agrees_transaction`). The gate opens
in both worlds or in none (`agrees_gate_bind`), also when the table is known only from a record that
is looked up first (`agrees_found_gate_bind`).
-/

namespace Tabula

open Store Database

/-- What ids and times are made from. -/
structure Supply where
  token : Nat → String
  draw : Nat → Nat
  stamp : Int
  now : Moment

namespace Supply

def dropToken (p : Supply) : Supply := { p with token := fun k => p.token (k + 1) }

def dropDraws (n : Nat) (p : Supply) : Supply := { p with draw := fun k => p.draw (n + k) }

def dropStamp (p : Supply) : Supply := { p with stamp := p.stamp + 1 }

end Supply

namespace Surroundings

/-- The stamp that comes next. -/
def nextStamp (s : Surroundings) (w : World) : Int :=
  if Action.clockMillis s.clock ≤ w.lastStamp then w.lastStamp + 1 else Action.clockMillis s.clock

/-- What ids and times are made from, from here on. -/
def supply (s : Surroundings) (w : World) : Supply where
  token k := s.token (w.tokens + 1 + k)
  draw k := s.draw (w.draws + k)
  stamp := s.nextStamp w
  now := s.now

theorem le_nextStamp (s : Surroundings) (w : World) :
    Action.clockMillis s.clock ≤ s.nextStamp w := by
  rw [nextStamp]
  split <;> omega

variable (s : Surroundings) (w : World)

theorem supply_newId (kind : String) :
    s.supply (Action.newId kind s w).2 = (s.supply w).dropToken :=
  congrArg (fun token => { s.supply w with token := token })
    (funext fun k => congrArg s.token (by simp only [Action.newId]; omega))

theorem supply_ending (length : Nat) :
    s.supply (Action.ending length s w).2 = (s.supply w).dropDraws length :=
  congrArg (fun draw => { s.supply w with draw := draw })
    (funext fun k => congrArg s.draw (by simp only [Action.ending]; omega))

/-- Stamps go up by one once there was one. -/
theorem supply_stamp : s.supply (Action.stamp s w).2 = (s.supply w).dropStamp :=
  congrArg (fun stamp => { s.supply w with stamp := stamp }) (if_pos (s.le_nextStamp w))

end Surroundings

/-- Two worlds whose databases are the same for an actor, with the same ids and times to come. -/
structure World.AlikeFor (actor : String) (s₁ s₂ : Surroundings) (w₁ w₂ : World)
    (db₁ db₂ : Database) : Prop where
  ready₁ : w₁.storage = .ready db₁
  ready₂ : w₂.storage = .ready db₂
  orderly₁ : db₁.IsOrderly
  orderly₂ : db₂.IsOrderly
  same : SameFor actor db₁ db₂
  supply : s₁.supply w₁ = s₂.supply w₂

namespace Action

variable {α β : Type}

/-! ## Actions that look at the supply only -/

/-- An action that leaves what is stored, and whose answer hangs on the ids and times to come. -/
structure IsBlind (x : Action α) : Prop where
  quiet : IsQuiet x
  answer : ∀ {s₁ s₂ : Surroundings} {w₁ w₂ : World}, s₁.supply w₁ = s₂.supply w₂ →
    (x s₁ w₁).1 = (x s₂ w₂).1 ∧ s₁.supply (x s₁ w₁).2 = s₂.supply (x s₂ w₂).2

theorem isBlind_pure (a : α) : IsBlind (Pure.pure a : Action α) :=
  ⟨isQuiet_pure a, fun h => ⟨rfl, h⟩⟩

theorem isBlind_lift (r : Except Failure α) : IsBlind (liftM r : Action α) :=
  ⟨isQuiet_lift r, fun h => ⟨rfl, h⟩⟩

theorem isBlind_now : IsBlind now :=
  ⟨isQuiet_now, fun h => ⟨congrArg Except.ok (congrArg Supply.now h), h⟩⟩

theorem isBlind_newId (kind : String) : IsBlind (newId kind) := by
  refine ⟨isQuiet_newId kind, fun h => ⟨?_, ?_⟩⟩
  · exact congrArg (fun p : Supply => Except.ok (kind ++ "_" ++ p.token 0)) h
  · rw [Surroundings.supply_newId, Surroundings.supply_newId, h]

theorem isBlind_stamp : IsBlind stamp := by
  refine ⟨isQuiet_stamp, fun h => ⟨congrArg Except.ok (congrArg Supply.stamp h), ?_⟩⟩
  rw [Surroundings.supply_stamp, Surroundings.supply_stamp, h]

theorem isBlind_ending (length : Nat) : IsBlind (ending length) := by
  refine ⟨isQuiet_ending length, fun h => ⟨?_, ?_⟩⟩
  · exact congrArg (fun p : Supply => Except.ok (String.ofList ((List.range length).map fun k =>
      alphabet.getD (p.draw k % alphabet.length) 'a'))) h
  · rw [Surroundings.supply_ending, Surroundings.supply_ending, h]

theorem isBlind_bind {x : Action α} {f : α → Action β} (hx : IsBlind x) (hf : ∀ a, IsBlind (f a)) :
    IsBlind (x >>= f) := by
  refine ⟨isQuiet_bind hx.quiet fun a => (hf a).quiet, fun {s₁ s₂ w₁ w₂} h => ?_⟩
  obtain ⟨hanswer, hsupply⟩ := hx.answer h
  rcases h₁ : x s₁ w₁ with ⟨r, w₁'⟩
  rcases h₂ : x s₂ w₂ with ⟨r', w₂'⟩
  rw [h₁, h₂] at hanswer hsupply
  obtain rfl : r = r' := hanswer
  rcases r with why | a
  · rw [run_bind_error h₁, run_bind_error h₂]
    exact ⟨rfl, hsupply⟩
  · rw [run_bind_ok h₁, run_bind_ok h₂]
    exact (hf a).answer hsupply

theorem isBlind_endings : ∀ n, IsBlind (endings n)
  | 0 => isBlind_pure []
  | n + 1 => isBlind_bind (isBlind_ending 6) fun _ =>
      isBlind_bind (isBlind_endings n) fun _ => isBlind_pure _

/-! ## Actions that agree -/

variable {actor : String} {s₁ s₂ : Surroundings} {w₁ w₂ : World} {db₁ db₂ : Database}

/-- The action gives the same answer in both worlds, leaves them alike, and leaves what is not the
actor's. -/
def Agrees (actor : String) (x : Action α) (s₁ s₂ : Surroundings) (w₁ w₂ : World)
    (db : Database) : Prop :=
  ∃ r w₁' w₂' db₁' db₂', x s₁ w₁ = (r, w₁') ∧ x s₂ w₂ = (r, w₂') ∧
    World.AlikeFor actor s₁ s₂ w₁' w₂' db₁' db₂' ∧ db₁'.apart actor = db.apart actor

section Agrees

variable (h : World.AlikeFor actor s₁ s₂ w₁ w₂ db₁ db₂)

include h

theorem agrees_of_run {x : Action α} {r : Except Failure α} (h₁ : x s₁ w₁ = (r, w₁))
    (h₂ : x s₂ w₂ = (r, w₂)) : Agrees actor x s₁ s₂ w₁ w₂ db₁ :=
  ⟨r, w₁, w₂, db₁, db₂, h₁, h₂, h, rfl⟩

theorem agrees_pure (a : α) : Agrees actor (Pure.pure a) s₁ s₂ w₁ w₂ db₁ := agrees_of_run h rfl rfl

theorem agrees_throw (e : Failure) : Agrees actor (throw e : Action α) s₁ s₂ w₁ w₂ db₁ :=
  agrees_of_run h rfl rfl

/-- A step that refuses for the same reason in both worlds. -/
theorem agrees_bind_of_error {x : Action α} {why : Failure} (h₁ : x s₁ w₁ = (.error why, w₁))
    (h₂ : x s₂ w₂ = (.error why, w₂)) (k : α → Action β) :
    Agrees actor (x >>= k) s₁ s₂ w₁ w₂ db₁ :=
  agrees_of_run h (run_bind_error h₁ k) (run_bind_error h₂ k)

/-- A step that only answers, and gives the same answer in both worlds. -/
theorem agrees_bind_of_run {x : Action α} {r : Except Failure α} {k : α → Action β}
    (h₁ : x s₁ w₁ = (r, w₁)) (h₂ : x s₂ w₂ = (r, w₂))
    (hk : ∀ a, r = .ok a → Agrees actor (k a) s₁ s₂ w₁ w₂ db₁) :
    Agrees actor (x >>= k) s₁ s₂ w₁ w₂ db₁ := by
  rcases r with why | a
  · exact agrees_bind_of_error h h₁ h₂ k
  · obtain ⟨r, w₁', w₂', db₁', db₂', hrun₁, hrun₂, hafter⟩ := hk a rfl
    exact ⟨r, w₁', w₂', db₁', db₂', (run_bind_ok h₁ k).trans hrun₁, (run_bind_ok h₂ k).trans hrun₂,
      hafter⟩

theorem agrees_lift_bind {r : Except Failure α} {k : α → Action β}
    (hk : ∀ a, r = .ok a → Agrees actor (k a) s₁ s₂ w₁ w₂ db₁) :
    Agrees actor ((liftM r : Action α) >>= k) s₁ s₂ w₁ w₂ db₁ :=
  agrees_bind_of_run h rfl rfl hk

theorem agrees_now_bind {k : Moment → Action β} (hk : Agrees actor (k s₁.now) s₁ s₂ w₁ w₂ db₁) :
    Agrees actor (now >>= k) s₁ s₂ w₁ w₂ db₁ := by
  have hnow : s₁.now = s₂.now := congrArg Supply.now h.supply
  exact agrees_bind_of_run h run_now (hnow ▸ run_now) fun _ ha => Except.ok.inj ha ▸ hk

theorem agrees_query {f : Database → Except Failure α} (hf : f db₁ = f db₂) :
    Agrees actor (query f) s₁ s₂ w₁ w₂ db₁ :=
  agrees_of_run h (run_query h.ready₁ f) (hf ▸ run_query h.ready₂ f)

theorem agrees_query_bind {f : Database → Except Failure α} {k : α → Action β} (hf : f db₁ = f db₂)
    (hk : ∀ a, f db₁ = .ok a → Agrees actor (k a) s₁ s₂ w₁ w₂ db₁) :
    Agrees actor (query f >>= k) s₁ s₂ w₁ w₂ db₁ :=
  agrees_bind_of_run h (run_query h.ready₁ f) (hf ▸ run_query h.ready₂ f) hk

/-- A step that looks at the ids and times to come leaves as many of them in both worlds. -/
theorem agrees_blind_bind {x : Action α} {k : α → Action β} (hx : IsBlind x)
    (hk : ∀ a w₁' w₂', x s₁ w₁ = (.ok a, w₁') → x s₂ w₂ = (.ok a, w₂') →
      World.AlikeFor actor s₁ s₂ w₁' w₂' db₁ db₂ → Agrees actor (k a) s₁ s₂ w₁' w₂' db₁) :
    Agrees actor (x >>= k) s₁ s₂ w₁ w₂ db₁ := by
  obtain ⟨hanswer, hsupply⟩ := hx.answer h.supply
  rcases h₁ : x s₁ w₁ with ⟨r, w₁'⟩
  rcases h₂ : x s₂ w₂ with ⟨r', w₂'⟩
  rw [h₁, h₂] at hanswer hsupply
  obtain rfl : r = r' := hanswer
  have halike : World.AlikeFor actor s₁ s₂ w₁' w₂' db₁ db₂ :=
    ⟨(hx.quiet.storage_eq h₁).trans h.ready₁, (hx.quiet.storage_eq h₂).trans h.ready₂, h.orderly₁,
      h.orderly₂, h.same, hsupply⟩
  rcases r with why | a
  · exact ⟨_, w₁', w₂', db₁, db₂, run_bind_error h₁ k, run_bind_error h₂ k, halike, rfl⟩
  · obtain ⟨r, w₁'', w₂'', db₁', db₂', hrun₁, hrun₂, hafter⟩ := hk a w₁' w₂' h₁ h₂ halike
    exact ⟨r, w₁'', w₂'', db₁', db₂', (run_bind_ok h₁ k).trans hrun₁,
      (run_bind_ok h₂ k).trans hrun₂, hafter⟩

end Agrees

/-- Any step that agrees, and the steps after it in the worlds that it leaves. -/
theorem agrees_bind {x : Action α} {k : α → Action β} (hx : Agrees actor x s₁ s₂ w₁ w₂ db₁)
    (hk : ∀ a w₁' w₂' db₁' db₂', x s₁ w₁ = (.ok a, w₁') → x s₂ w₂ = (.ok a, w₂') →
      World.AlikeFor actor s₁ s₂ w₁' w₂' db₁' db₂' → Agrees actor (k a) s₁ s₂ w₁' w₂' db₁') :
    Agrees actor (x >>= k) s₁ s₂ w₁ w₂ db₁ := by
  obtain ⟨r, w₁', w₂', db₁', db₂', h₁, h₂, halike, hapart⟩ := hx
  rcases r with why | a
  · exact ⟨_, w₁', w₂', db₁', db₂', run_bind_error h₁ k, run_bind_error h₂ k, halike, hapart⟩
  · obtain ⟨r, w₁'', w₂'', db₁'', db₂'', hrun₁, hrun₂, halike', hapart'⟩ :=
      hk a w₁' w₂' db₁' db₂' h₁ h₂ halike
    exact ⟨r, w₁'', w₂'', db₁'', db₂'', (run_bind_ok h₁ k).trans hrun₁,
      (run_bind_ok h₂ k).trans hrun₂, halike', hapart'.trans hapart⟩

/-- The action gives the same answer in both worlds, leaves databases that are in order and the same
for the actor, and leaves what is not his. Nothing is said of the ids and times to come. -/
structure Concurs (actor : String) (x : Action α) (s₁ s₂ : Surroundings) (w₁ w₂ : World)
    (db : Database) : Prop where
  answer : (x s₁ w₁).1 = (x s₂ w₂).1
  storage : ∃ db₁' db₂', (x s₁ w₁).2.storage = .ready db₁' ∧ (x s₂ w₂).2.storage = .ready db₂' ∧
    db₁'.IsOrderly ∧ SameFor actor db₁' db₂' ∧ db₁'.apart actor = db.apart actor

theorem Agrees.concurs {x : Action α} (hx : Agrees actor x s₁ s₂ w₁ w₂ db₁) :
    Concurs actor x s₁ s₂ w₁ w₂ db₁ := by
  obtain ⟨r, w₁', w₂', db₁', db₂', h₁, h₂, halike, hapart⟩ := hx
  refine ⟨by rw [h₁, h₂], db₁', db₂', ?_, ?_, halike.orderly₁, halike.same, hapart⟩
  · rw [h₁, halike.ready₁]
  · rw [h₂, halike.ready₂]

theorem agrees_map {x : Action α} {f : α → β} (hx : Agrees actor x s₁ s₂ w₁ w₂ db₁) :
    Agrees actor (do return f (← x) : Action β) s₁ s₂ w₁ w₂ db₁ :=
  agrees_bind hx fun a _ _ _ _ _ _ halike => agrees_pure halike (f a)

theorem agrees_rowStore {action : RowAction} {x : Action α} (hx : Agrees actor x s₁ s₂ w₁ w₂ db₁) :
    Agrees actor (rowStore action x) s₁ s₂ w₁ w₂ db₁ := by
  obtain ⟨r, w₁', w₂', db₁', db₂', h₁, h₂, hafter⟩ := hx
  rcases r with why | a
  · exact ⟨_, w₁', w₂', db₁', db₂', run_rowStore_error h₁, run_rowStore_error h₂, hafter⟩
  · exact ⟨_, w₁', w₂', db₁', db₂', run_rowStore_ok h₁, run_rowStore_ok h₂, hafter⟩

/-! ## Transactions -/

/-- A transaction refuses both databases for the same reason, or edits both in the same way. -/
inductive Edits (actor : String) (f : Database → Except Failure (α × Database))
    (db₁ db₂ : Database) : Prop where
  | refused {why : Failure} (h₁ : f db₁ = .error why) (h₂ : f db₂ = .error why)
  | made {a : α} {e : Edit} (h₁ : f db₁ = .ok (a, e.apply db₁)) (h₂ : f db₂ = .ok (a, e.apply db₂))
      (he₁ : e.IsOf actor db₁) (he₂ : e.IsOf actor db₂)

theorem alikeFor_apply (h : World.AlikeFor actor s₁ s₂ w₁ w₂ db₁ db₂) {e : Edit}
    (he₁ : e.IsOf actor db₁) (he₂ : e.IsOf actor db₂) :
    World.AlikeFor actor s₁ s₂ (w₁.withDatabase (e.apply db₁)) (w₂.withDatabase (e.apply db₂))
      (e.apply db₁) (e.apply db₂) :=
  ⟨rfl, rfl, Edit.isOrderly_apply h.orderly₁ he₁, Edit.isOrderly_apply h.orderly₂ he₂,
    Edit.sameFor_apply h.same h.orderly₁ h.orderly₂ he₁ he₂, h.supply⟩

theorem agrees_transaction (h : World.AlikeFor actor s₁ s₂ w₁ w₂ db₁ db₂)
    {f : Database → Except Failure (α × Database)} (hf : Edits actor f db₁ db₂) :
    Agrees actor (transaction f) s₁ s₂ w₁ w₂ db₁ := by
  cases hf with
  | refused h₁ h₂ =>
    exact agrees_of_run h (run_transaction_error h.ready₁ h₁) (run_transaction_error h.ready₂ h₂)
  | made h₁ h₂ he₁ he₂ =>
    exact ⟨_, _, _, _, _, run_transaction_ok h.ready₁ h₁, run_transaction_ok h.ready₂ h₂,
      alikeFor_apply h he₁ he₂, Edit.apart_apply h.orderly₁ he₁⟩

/-! ## The gate -/

theorem agrees_gate_bind (h : World.AlikeFor actor s₁ s₂ w₁ w₂ db₁ db₂) {table : String}
    {k : Table → Action β}
    (hk : ∀ t, Catalog.ownedTable actor table db₁ = .ok t → db₁.owner table = some actor →
      db₂.owner table = some actor → Agrees actor (k t) s₁ s₂ w₁ w₂ db₁) :
    Agrees actor (Catalog.ensureOwner actor table >>= k) s₁ s₂ w₁ w₂ db₁ := by
  have heq := h.same.ownedTable_eq h.orderly₁ h.orderly₂ table
  refine agrees_query_bind h heq fun t ht => hk t ht (owner_of_ownedTable ht) ?_
  exact owner_of_ownedTable (heq ▸ ht)

/-- The gate is shut for a table of another owner. -/
theorem run_gate_bind_of_ne {s : Surroundings} {w : World} {db : Database}
    (hw : w.storage = .ready db) {table o : String} (ho : db.owner table = some o) (hne : o ≠ actor)
    (k : Table → Action β) :
    (Catalog.ensureOwner actor table >>= k) s w = (.error .forbidden, w) := by
  refine run_bind_error ?_ k
  rw [Catalog.ensureOwner, run_query hw, ownedTable_of_owner_ne ho hne]

/-- A record is looked up, and one of another owner is forbidden, whatever it is. -/
theorem agrees_found_bind {ρ : Type} (K : Kind ρ)
    (h : World.AlikeFor actor s₁ s₂ w₁ w₂ db₁ db₂) {id : String} {x : Action ρ} {k : ρ → Action β}
    (hx : ∀ {s w db}, w.storage = .ready db → x s w = (K.lookup id db, w))
    (hforeign : ∀ {s w db} a {o}, w.storage = .ready db → K.owner db a = some o → o ≠ actor →
      k a s w = (.error .forbidden, w))
    (hk : ∀ a, K.find? id db₁ = some a → K.find? id db₂ = some a → K.owner db₁ a = some actor →
      Agrees actor (k a) s₁ s₂ w₁ w₂ db₁) :
    Agrees actor (x >>= k) s₁ s₂ w₁ w₂ db₁ := by
  have hx₁ := hx (s := s₁) h.ready₁
  have hx₂ := hx (s := s₂) h.ready₂
  rw [Kind.lookup] at hx₁ hx₂
  cases K.found h.same h.orderly₁ h.orderly₂ id with
  | missing hfind₁ hfind₂ =>
    rw [hfind₁] at hx₁
    rw [hfind₂] at hx₂
    exact agrees_bind_of_error h hx₁ hx₂ k
  | @own a hfind₁ hfind₂ ho₁ =>
    rw [hfind₁] at hx₁
    rw [hfind₂] at hx₂
    refine agrees_bind_of_run h hx₁ hx₂ fun a' ha => ?_
    obtain rfl := Except.ok.inj ha
    exact hk a hfind₁ hfind₂ ho₁
  | foreign hfind₁ hfind₂ ho₁ ho₂ hne =>
    rw [hfind₁] at hx₁
    rw [hfind₂] at hx₂
    exact agrees_of_run h ((run_bind_ok hx₁ k).trans (hforeign _ h.ready₁ ho₁ hne))
      ((run_bind_ok hx₂ k).trans (hforeign _ h.ready₂ ho₂ hne))

/-- A record is looked up, and then its table passes the gate. -/
theorem agrees_found_gate_bind {ρ : Type} (K : Kind ρ) {table : ρ → String}
    (howner : ∀ db a, K.owner db a = db.owner (table a))
    (h : World.AlikeFor actor s₁ s₂ w₁ w₂ db₁ db₂) {id : String} {x : Action ρ}
    {k : ρ → Table → Action β}
    (hx : ∀ {s w db}, w.storage = .ready db → x s w = (K.lookup id db, w))
    (hk : ∀ a t, K.find? id db₁ = some a → K.find? id db₂ = some a →
      db₁.owner (table a) = some actor → db₂.owner (table a) = some actor →
        Agrees actor (k a t) s₁ s₂ w₁ w₂ db₁) :
    Agrees actor (x >>= fun a => Catalog.ensureOwner actor (table a) >>= k a) s₁ s₂ w₁ w₂ db₁ := by
  refine agrees_found_bind K h hx (fun a _ hw ho hne => ?_) fun a hfind₁ hfind₂ _ => ?_
  · exact run_gate_bind_of_ne hw (howner _ a ▸ ho) hne _
  · exact agrees_gate_bind h fun t _ ho₁ ho₂ => hk a t hfind₁ hfind₂ ho₁ ho₂

end Action

end Tabula

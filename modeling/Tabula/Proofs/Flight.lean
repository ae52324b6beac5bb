import Mathlib.Data.List.Sort
import Mathlib.Logic.Relation
import Tabula.Ingest.Run
import Tabula.Proofs.Actions

/-!
# Batches in flight

A `Flight` is a run at any moment : which batches wait, which were submitted, and of these
which are running, which ended, which the coordinator has taken to settle and which it has
settled. `Flight.Step` is what may happen next. A batch that runs may end at any time, with
its own outcome or refused by the store; the coordinator submits while there is room, takes
some batches that ended when there is none, takes all of them when nothing more is to be
submitted, and settles those it took in the order of their offsets. Counting a batch in the
ledger and writing the checkpoint are two steps, so a moment between them is a moment too.

A run that is not over goes on (`Flight.exists_step`), and no run goes on for ever
(`Flight.remaining_lt`). `Run.drive` is one of these runs (`Run.drives`) : the one in which a
batch ends as soon as it is submitted.
-/

namespace Tabula

/-- A run at one moment. -/
structure Flight where
  world : World
  run : Run
  /-- The batches that are not submitted yet, in order. -/
  waiting : List Descriptor
  /-- The batches that were submitted, in order. -/
  submitted : List Descriptor
  /-- The submitted batches that have not ended. -/
  running : List Descriptor
  /-- The batches that ended and that the coordinator has not taken. -/
  ended : List Finished
  /-- The batches that the coordinator has taken, in the order in which it settles them. -/
  due : List Finished
  /-- The first batch of those taken is counted in the ledger and has no checkpoint yet. -/
  counted : Bool
  /-- The batches that are settled, in order. -/
  settled : List Finished

namespace Flight

/-- The batches that are submitted and not settled. -/
def inFlight (f : Flight) : Nat := f.running.length + f.ended.length + f.due.length

/-- The batches that ended, wherever they are. -/
def executed (f : Flight) : List Finished := f.ended ++ f.due ++ f.settled

/-- A run before its first batch. -/
def start (w : World) (processed : Int) (ds : List Descriptor) : Flight :=
  ⟨w, Run.start processed, ds, [], [], [], [], false, []⟩

/-- In the order of their offsets. -/
def Ascending (fs : List Finished) : Prop := fs.Pairwise fun a b => a.1.offset ≤ b.1.offset

section Steps

variable (concurrency : Int) (job : Job) (source : Source)
  (refuses : Descriptor → Failure → Prop)

/-- What may happen next in a run. `refuses` are the failures with which the store may
refuse a batch whatever its rows are. -/
inductive Step : Flight → Flight → Prop where
  | submit {f : Flight} {d : Descriptor} {ds : List Descriptor} (hwaiting : f.waiting = d :: ds)
      (hdue : f.due = []) (hhalted : f.run.halted = false) (hfailure : f.run.failure = none)
      (hroom : (f.inFlight : Int) < concurrency) :
      Step f { f with
        waiting := ds, submitted := f.submitted ++ [d], running := f.running ++ [d] }
  | execute {f : Flight} {before after : List Descriptor} {d : Descriptor} {w : World}
      {r : Except Failure Nat} (s : Surroundings) (hrunning : f.running = before ++ d :: after)
      (hrun : Action.attempt (Run.execute job source d) s f.world = (.ok r, w)) :
      Step f { f with world := w, running := before ++ after, ended := f.ended ++ [(d, r)] }
  | refuse {f : Flight} {before after : List Descriptor} {d : Descriptor} {why : Failure}
      (hrunning : f.running = before ++ d :: after) (hwhy : refuses d why) :
      Step f { f with running := before ++ after, ended := f.ended ++ [(d, .error why)] }
  | takeSome {f : Flight} {taken left : List Finished} (hhalted : f.run.halted = false)
      (hfailure : f.run.failure = none) (hwaiting : f.waiting ≠ []) (hdue : f.due = [])
      (hfull : concurrency ≤ f.inFlight) (hended : f.ended.Perm (taken ++ left))
      (htaken : taken ≠ []) (hsorted : Ascending taken) :
      Step f { f with ended := left, due := taken }
  | takeAll {f : Flight} {taken : List Finished} (hhalted : f.run.halted = false)
      (hlast : f.run.failure.isSome ∨ f.waiting = []) (hdue : f.due = [])
      (hrunning : f.running = []) (hended : f.ended.Perm taken) (htaken : taken ≠ []) (hsorted : Ascending taken) :
      Step f { f with ended := [], due := taken }
  | lose {f : Flight} {d : Descriptor} {why : Failure} {rest : List Finished}
      (hhalted : f.run.halted = false) (hdue : f.due = (d, .error why) :: rest) :
      Step f { f with
        run := f.run.record why (some d), due := rest, settled := f.settled ++ [(d, .error why)] }
  | count {f : Flight} {d : Descriptor} {n : Nat} {rest : List Finished} {x : Binary64} {w : World}
      (s : Surroundings) (hhalted : f.run.halted = false) (hcounted : f.counted = false)
      (hdue : f.due = (d, .ok n) :: rest)
      (hrun : Jobs.advance job.id d.size s f.world = (.ok x, w)) :
      Step f { f with
        world := w, run := { f.run with processed := f.run.processed + d.size }, counted := true }
  | mark {f : Flight} {d : Descriptor} {n : Nat} {rest : List Finished} {w : World}
      (s : Surroundings) (hhalted : f.run.halted = false) (hcounted : f.counted = true)
      (hdue : f.due = (d, .ok n) :: rest)
      (hrun : Run.mark job.id f.run.processed s f.world = (.ok (), w)) :
      Step f { f with
        world := w, due := rest, counted := false, settled := f.settled ++ [(d, .ok n)] }
  | haltCount {f : Flight} {d : Descriptor} {n : Nat} {rest : List Finished} {why : Failure}
      {w : World} (s : Surroundings) (hhalted : f.run.halted = false) (hcounted : f.counted = false)
      (hdue : f.due = (d, .ok n) :: rest)
      (hrun : Jobs.advance job.id d.size s f.world = (.error why, w)) :
      Step f { f with world := w, run := { f.run.record why none with halted := true } }
  | haltMark {f : Flight} {d : Descriptor} {n : Nat} {rest : List Finished} {why : Failure}
      {w : World} (s : Surroundings) (hhalted : f.run.halted = false) (hcounted : f.counted = true)
      (hdue : f.due = (d, .ok n) :: rest)
      (hrun : Run.mark job.id f.run.processed s f.world = (.error why, w)) :
      Step f { f with world := w, run := { f.run.record why none with halted := true } }

/-- What may have happened in a run after some steps. -/
def Reaches : Flight → Flight → Prop :=
  Relation.ReflTransGen (Step concurrency job source refuses)

end Steps

/-- A run in which nothing more happens : no batch is in flight and none is to be submitted,
or the ledger refused to count. -/
def IsOver (f : Flight) : Prop :=
  f.running = [] ∧ (f.run.halted = true ∨
    f.ended = [] ∧ f.due = [] ∧ (f.run.failure.isSome ∨ f.waiting = []))

/-- Whether the coordinator counts a batch that has something to count. -/
def CountsStored (f : Flight) : Prop :=
  f.counted = true → ∃ d n rest, f.due = (d, .ok n) :: rest

variable {concurrency : Int} {job : Job} {source : Source}
  {refuses : Descriptor → Failure → Prop} {f f' : Flight}

theorem countsStored_of_step (h : Step concurrency job source refuses f f')
    (hf : f.CountsStored) : f'.CountsStored := by
  cases h with
  | submit _ hdue _ _ _ => exact hf
  | execute => exact hf
  | refuse => exact hf
  | takeSome _ _ _ hdue _ _ _ _ =>
    intro hc
    obtain ⟨_, _, _, h⟩ := hf hc
    rw [hdue] at h
    cases h
  | takeAll _ _ hdue _ _ _ _ =>
    intro hc
    obtain ⟨_, _, _, h⟩ := hf hc
    rw [hdue] at h
    cases h
  | lose _ hdue =>
    intro hc
    obtain ⟨_, _, _, h⟩ := hf hc
    rw [hdue] at h
    cases h
  | count _ _ _ hdue _ => exact fun _ => ⟨_, _, _, hdue⟩
  | mark => exact fun hc => Bool.noConfusion hc
  | haltCount => exact hf
  | haltMark => exact hf

/-! ## Runs go on and end -/

theorem exists_ascending (fs : List Finished) : ∃ taken, fs.Perm taken ∧ Ascending taken := by
  let le : Finished → Finished → Bool := fun a b => a.1.offset ≤ b.1.offset
  have htrans : ∀ a b c, le a b = true → le b c = true → le a c = true := by
    intro a b c hab hbc
    simp only [le, decide_eq_true_eq] at *
    omega
  have htotal : ∀ a b, (le a b || le b a) = true := by
    intro a b
    simp only [le, Bool.or_eq_true, decide_eq_true_eq]
    omega
  refine ⟨fs.mergeSort le, (List.mergeSort_perm fs le).symm, ?_⟩
  exact (List.pairwise_mergeSort htrans htotal fs).imp fun h => of_decide_eq_true h

/-- A run that is not over goes on. -/
theorem exists_step (hc : 1 ≤ concurrency) (hover : ¬ f.IsOver) :
    ∃ f', Step concurrency job source refuses f f' := by
  have s : Surroundings := ⟨⟨0⟩, .zero, fun _ => "", fun _ => 0⟩
  rcases hrunning : f.running with _ | ⟨d, ds⟩
  swap
  · have hfirst : f.running = [] ++ d :: ds := hrunning
    exact ⟨_, Step.execute s hfirst (Action.run_attempt _)⟩
  have hhalted : f.run.halted = false := by
    by_contra h
    exact hover ⟨hrunning, Or.inl (by simpa using h)⟩
  rcases hdue : f.due with _ | ⟨⟨d, why | n⟩, rest⟩
  · rcases hended : f.ended with _ | ⟨e, es⟩
    · -- nothing is in flight, so there is something to submit
      have hnot : ¬ (f.run.failure.isSome = true ∨ f.waiting = []) := fun h =>
        hover ⟨hrunning, Or.inr ⟨hended, hdue, h⟩⟩
      obtain ⟨d, ds, hwaiting⟩ := List.exists_cons_of_ne_nil fun h => hnot (Or.inr h)
      have hroom : (f.inFlight : Int) < concurrency := by
        simp only [inFlight, hrunning, hended, hdue, List.length_nil]
        omega
      exact ⟨_, Step.submit hwaiting hdue hhalted
        (by simpa using fun h => hnot (Or.inl h)) hroom⟩
    · obtain ⟨taken, hperm, hsorted⟩ := exists_ascending f.ended
      have htaken : taken ≠ [] := by
        rintro rfl
        rw [hended] at hperm
        exact absurd hperm.eq_nil (by simp)
      by_cases hlast : f.run.failure.isSome = true ∨ f.waiting = []
      · exact ⟨_, Step.takeAll hhalted hlast hdue hrunning hperm htaken hsorted⟩
      · have hfailure : f.run.failure = none := by simpa using fun h => hlast (Or.inl h)
        have hwaiting : f.waiting ≠ [] := fun h => hlast (Or.inr h)
        by_cases hroom : (f.inFlight : Int) < concurrency
        · obtain ⟨d, ds, hd⟩ := List.exists_cons_of_ne_nil hwaiting
          exact ⟨_, Step.submit hd hdue hhalted hfailure hroom⟩
        · have hall : f.ended.Perm (taken ++ []) := by simpa using hperm
          exact ⟨_, Step.takeSome hhalted hfailure hwaiting hdue (by omega) hall htaken hsorted⟩
  · exact ⟨_, Step.lose hhalted hdue⟩
  · rcases hcounted : f.counted with _ | _
    · rcases hrun : Jobs.advance job.id d.size s f.world with ⟨why | x, w⟩
      · exact ⟨_, Step.haltCount s hhalted hcounted hdue hrun⟩
      · exact ⟨_, Step.count s hhalted hcounted hdue hrun⟩
    · rcases hrun : Run.mark job.id f.run.processed s f.world with ⟨why | _, w⟩
      · exact ⟨_, Step.haltMark s hhalted hcounted hdue hrun⟩
      · exact ⟨_, Step.mark s hhalted hcounted hdue hrun⟩

/-- How much there is to do : each batch has five steps before it, at most, and each step is
one less. -/
def remaining (f : Flight) : Nat :=
  5 * f.waiting.length + 4 * f.running.length + 3 * f.ended.length + 2 * f.due.length +
    (if f.counted then 0 else 1) + (if f.run.halted then 0 else 1)

theorem halted_record (r : Run) (why : Failure) (batch : Option Descriptor) :
    (r.record why batch).halted = r.halted := by
  rw [Run.record]
  split <;> rfl

/-- No run goes on for ever. -/
theorem remaining_lt (h : Step concurrency job source refuses f f') :
    f'.remaining < f.remaining := by
  cases h with
  | submit hwaiting _ _ _ _ =>
    simp only [remaining, hwaiting, List.length_cons, List.length_append, List.length_nil]
    omega
  | execute _ hrunning _ =>
    simp only [remaining, hrunning, List.length_cons, List.length_append, List.length_nil]
    omega
  | refuse hrunning _ =>
    simp only [remaining, hrunning, List.length_cons, List.length_append, List.length_nil]
    omega
  | takeSome _ _ _ hdue _ hended htaken _ =>
    have hlen := hended.length_eq
    have hpos := List.length_pos_iff.mpr htaken
    rw [List.length_append] at hlen
    simp only [remaining, hdue, List.length_nil]
    omega
  | takeAll _ _ hdue _ hended htaken _ =>
    have hlen := hended.length_eq
    have hpos := List.length_pos_iff.mpr htaken
    simp only [remaining, hdue, List.length_nil]
    omega
  | lose _ hdue =>
    simp only [remaining, hdue, List.length_cons, halted_record]
    omega
  | count _ _ hcounted _ _ =>
    simp only [remaining, hcounted, if_true, Bool.false_eq_true, if_false]
    omega
  | mark _ _ hcounted hdue _ =>
    simp only [remaining, hcounted, hdue, List.length_cons, if_true, Bool.false_eq_true, if_false]
    omega
  | haltCount _ hhalted _ _ _ =>
    simp only [remaining, hhalted, if_true, Bool.false_eq_true, if_false]
    omega
  | haltMark _ hhalted _ _ _ =>
    simp only [remaining, hhalted, if_true, Bool.false_eq_true, if_false]
    omega

theorem failure_record_of_isSome {r : Run} (h : r.failure.isSome) (why : Failure)
    (batch : Option Descriptor) : r.record why batch = r := by
  obtain ⟨e, he⟩ := Option.isSome_iff_exists.mp h
  rw [Run.record, he]

/-- After a failure nothing more is submitted, and the failure stays. -/
theorem submitted_of_failure (h : Reaches concurrency job source refuses f f')
    (hf : f.run.failure.isSome) :
    f'.submitted = f.submitted ∧ f'.run.failure = f.run.failure := by
  induction h with
  | refl => exact ⟨rfl, rfl⟩
  | tail _ hstep ih =>
    obtain ⟨hs, he⟩ := ih
    rw [← hs, ← he]
    rw [← he] at hf
    cases hstep with
    | submit _ _ _ hfailure _ =>
      rw [hfailure] at hf
      cases hf
    | lose =>
      have := failure_record_of_isSome hf
      exact ⟨rfl, by simp only [this]⟩
    | haltCount =>
      have := failure_record_of_isSome hf
      exact ⟨rfl, by simp only [this]⟩
    | haltMark =>
      have := failure_record_of_isSome hf
      exact ⟨rfl, by simp only [this]⟩
    | _ => exact ⟨rfl, rfl⟩

end Flight

/-! ## The run that settles in order -/

namespace Run

open Flight

variable {concurrency : Int} {job : Job} {source : Source}
  {refuses : Descriptor → Failure → Prop} {s : Surroundings}

theorem settleAll_of_halted {r : Run} (h : r.halted = true) (w : World) :
    ∀ fs : List Finished, settleAll job.id r fs s w = (.ok r, w)
  | [] => rfl
  | f :: fs => by
    have hsettle : settle job.id r f s w = (.ok r, w) := by
      unfold settle
      simp only [h, if_true]
      rfl
    rw [settleAll, Action.run_bind_ok hsettle, settleAll_of_halted h w fs]

/-- A flight once some batches are settled : what the run says is what it is, and unless the
ledger refused to count, the rest is still to be settled. -/
structure Settled (r : Run) (w : World) (rest : List Finished) (f f' : Flight) : Prop where
  world : f'.world = w
  waiting : f'.waiting = f.waiting
  running : f'.running = f.running
  ended : f'.ended = f.ended
  failure : f'.run.failure = r.failure
  halted : f'.run.halted = r.halted
  failed : r.halted = true → r.failure.isSome = true
  going : f'.run.halted = false → f'.run = r ∧ f'.due = rest ∧ f'.counted = false

theorem isSome_failure_record (r : Run) (why : Failure) (batch : Option Descriptor) :
    (r.record why batch).failure.isSome = true := by
  rw [record]
  split
  · rename_i h
    rw [h]
    rfl
  · rfl

theorem run_settle_ok {r : Run} (h : r.halted = false) (d : Descriptor) (n : Nat) (w : World) :
    settle job.id r (d, .ok n) s w =
      (match count job.id d r s w with
        | (.ok r, w) => (.ok r, w)
        | (.error why, w) => (.ok { r.record why none with halted := true }, w)) := by
  unfold settle
  simp only [h, Bool.false_eq_true, if_false]
  rw [Action.run_bind, Action.run_attempt]
  rcases count job.id d r s w with ⟨_ | _, _⟩ <;> rfl

/-- Settling a batch that was taken is a part of a run. -/
theorem reaches_settle {e : Finished} {rest : List Finished} {f : Flight} (hdue : f.due = e :: rest)
    (hcounted : f.counted = false) (hhalted : f.run.halted = false) :
    ∃ r w f', settle job.id f.run e s f.world = (.ok r, w) ∧
      Reaches concurrency job source refuses f f' ∧ Settled r w rest f f' := by
  obtain ⟨d, why | n⟩ := e
  · have hsettle : settle job.id f.run (d, .error why) s f.world =
        (.ok (f.run.record why (some d)), f.world) := by
      unfold settle
      simp only [hhalted]
      rfl
    exact ⟨_, _, _, hsettle, .single (Step.lose hhalted hdue), rfl, rfl, rfl, rfl, rfl, rfl,
      fun _ => isSome_failure_record _ _ _, fun _ => ⟨rfl, rfl, hcounted⟩⟩
  rw [run_settle_ok hhalted, count]
  rcases hadvance : Jobs.advance job.id d.size s f.world with ⟨why | x, w⟩
  · rw [Action.run_bind_error hadvance]
    exact ⟨_, w, _, rfl, .single (Step.haltCount s hhalted hcounted hdue hadvance), rfl, rfl, rfl,
      rfl, rfl, rfl, fun _ => isSome_failure_record _ _ _, fun h => Bool.noConfusion h⟩
  let g : Flight := { f with
    world := w, run := { f.run with processed := f.run.processed + d.size }, counted := true }
  have hg : Step concurrency job source refuses f g := Step.count s hhalted hcounted hdue hadvance
  rw [Action.run_bind_ok hadvance]
  rcases hmark : mark job.id (f.run.processed + d.size) s w with ⟨why | _, w'⟩
  · have hfailure : (g.run.record why none).failure = (f.run.record why none).failure := by
      simp only [g, record]
      split <;> rfl
    rw [Action.run_bind_error hmark]
    exact ⟨_, w', _, rfl, .tail (.single hg) (Step.haltMark s hhalted rfl hdue hmark), rfl, rfl,
      rfl, rfl, hfailure, rfl, fun _ => isSome_failure_record _ _ _, fun h => Bool.noConfusion h⟩
  · rw [Action.run_bind_ok hmark, Action.run_pure]
    exact ⟨_, w', _, rfl, .tail (.single hg) (Step.mark s hhalted rfl hdue hmark), rfl, rfl, rfl,
      rfl, rfl, rfl, fun h => absurd (hhalted.symm.trans h) Bool.false_ne_true,
      fun _ => ⟨rfl, rfl, rfl⟩⟩

/-- Settling all batches that were taken is a part of a run. -/
theorem reaches_settleAll :
    ∀ (fs : List Finished) (f : Flight), f.due = fs → f.counted = false → f.run.halted = false →
      ∃ r w f', settleAll job.id f.run fs s f.world = (.ok r, w) ∧
        Reaches concurrency job source refuses f f' ∧ Settled r w [] f f'
  | [], f, hdue, hcounted, hhalted =>
    ⟨f.run, f.world, f, rfl, .refl, rfl, rfl, rfl, rfl, rfl, rfl,
      fun h => absurd (hhalted.symm.trans h) Bool.false_ne_true, fun _ => ⟨rfl, hdue, hcounted⟩⟩
  | e :: fs, f, hdue, hcounted, hhalted => by
    obtain ⟨r, w, g, hsettle, hreach, hg⟩ :=
      @reaches_settle concurrency job source refuses s e fs f hdue hcounted hhalted
    rw [settleAll, Action.run_bind_ok hsettle]
    rcases hgoing : g.run.halted with _ | _
    · obtain ⟨hrun, hrest, hnone⟩ := hg.going hgoing
      obtain ⟨r', w', f', hall, hreach', hf'⟩ := reaches_settleAll fs g hrest hnone hgoing
      rw [hg.world, hrun] at hall
      refine ⟨r', w', f', hall, hreach.trans hreach', ?_⟩
      exact ⟨hf'.world, hf'.waiting.trans hg.waiting, hf'.running.trans hg.running,
        hf'.ended.trans hg.ended, hf'.failure, hf'.halted, hf'.failed, hf'.going⟩
    · refine ⟨r, w, g, settleAll_of_halted (hg.halted.symm.trans hgoing) w fs, hreach, hg.world,
        hg.waiting, hg.running, hg.ended, hg.failure, hg.halted, hg.failed,
        fun h => absurd (h.symm.trans hgoing) Bool.false_ne_true⟩

/-- A batch that is submitted while nothing else runs, and ends at once. -/
theorem reaches_execute {f : Flight} {d : Descriptor} {ds : List Descriptor} {w : World}
    {result : Except Failure Nat} (hwaiting : f.waiting = d :: ds) (hrunning : f.running = [])
    (hdue : f.due = []) (hhalted : f.run.halted = false) (hfailure : f.run.failure = none)
    (hroom : (f.ended.length : Int) < concurrency)
    (hrun : Action.attempt (execute job source d) s f.world = (.ok result, w)) :
    Reaches concurrency job source refuses f { f with
      world := w, waiting := ds, submitted := f.submitted ++ [d], running := []
      ended := f.ended ++ [(d, result)] } := by
  have hin : (f.inFlight : Int) < concurrency := by
    simpa [inFlight, hrunning, hdue] using hroom
  let g : Flight := { f with
    waiting := ds, submitted := f.submitted ++ [d], running := f.running ++ [d] }
  have hg : Step concurrency job source refuses f g :=
    Step.submit hwaiting hdue hhalted hfailure hin
  have hone : g.running = [] ++ d :: [] := by simp [g, hrunning]
  exact .tail (.single hg) (Step.execute s hone hrun)

theorem run_drive_nil {inFlight : List Finished} {r : Run} :
    drive concurrency job source [] inFlight r = settleAll job.id r inFlight := rfl

theorem run_drive_cons {d : Descriptor} {ds : List Descriptor} {inFlight : List Finished} {r : Run}
    {w w' : World} {result : Except Failure Nat} (hroom : isFull concurrency inFlight = false)
    (hfailure : r.failure = none)
    (hrun : Action.attempt (execute job source d) s w = (.ok result, w')) :
    drive concurrency job source (d :: ds) inFlight r s w =
      drive concurrency job source ds (inFlight ++ [(d, result)]) r s w' := by
  rw [drive]
  simp only [hroom, Bool.false_eq_true, if_false, pure_bind, hfailure, Option.isSome_none]
  rw [Action.run_bind_ok hrun]

theorem isFull_nil (hc : 1 ≤ concurrency) : isFull concurrency [] = false := by
  simp only [isFull, List.length_nil, decide_eq_false_iff_not]
  omega

theorem run_drive_full (hc : 1 ≤ concurrency) {d : Descriptor} {ds : List Descriptor}
    {inFlight : List Finished} {r r' : Run} {w w' : World}
    (hfull : isFull concurrency inFlight = true)
    (hsettle : settleAll job.id r inFlight s w = (.ok r', w')) :
    drive concurrency job source (d :: ds) inFlight r s w =
      if r'.failure.isSome then (.ok r', w') else
        drive concurrency job source (d :: ds) [] r' s w' := by
  rw [drive]
  simp only [hfull, if_true]
  rw [Action.run_bind_ok hsettle]
  split
  · rfl
  · rename_i hfailure
    rw [drive]
    simp only [isFull_nil hc, Bool.false_eq_true, if_false, pure_bind, hfailure]

variable (concurrency job source refuses s) in
/-- Driving some batches from a moment is a part of a run, which ends it. -/
def Drives (ds : List Descriptor) (f : Flight) : Prop :=
  ∃ r w f', drive concurrency job source ds f.ended f.run s f.world = (.ok r, w) ∧
    Reaches concurrency job source refuses f f' ∧ f'.IsOver ∧ f'.world = w ∧
    f'.run.failure = r.failure

/-- A moment at which nothing runs and nothing is taken, and at which there was no failure. -/
structure Quiet (ds : List Descriptor) (f : Flight) : Prop where
  waiting : f.waiting = ds
  running : f.running = []
  due : f.due = []
  counted : f.counted = false
  halted : f.run.halted = false
  failure : f.run.failure = none
  sorted : (f.ended.map Prod.fst ++ ds).Pairwise fun a b => a.offset ≤ b.offset

theorem drives_nil {f : Flight} (h : Quiet [] f) :
    Drives concurrency job source refuses s [] f := by
  rw [Drives, run_drive_nil]
  by_cases hended : f.ended = []
  · rw [hended]
    exact ⟨f.run, f.world, f, rfl, .refl, ⟨h.running, Or.inr ⟨hended, h.due, Or.inr h.waiting⟩⟩,
      rfl, rfl⟩
  have hascending : Ascending f.ended := by
    have hsorted := h.sorted
    rw [List.append_nil, List.pairwise_map] at hsorted
    exact hsorted
  let g : Flight := { f with ended := [], due := f.ended }
  have hg : Step concurrency job source refuses f g :=
    Step.takeAll h.halted (Or.inr h.waiting) h.due h.running (List.Perm.refl _) hended hascending
  obtain ⟨r, w, f', hall, hreach, hf'⟩ :=
    @reaches_settleAll concurrency job source refuses s f.ended g rfl h.counted h.halted
  refine ⟨r, w, f', hall, .head hg hreach, ⟨hf'.running.trans h.running, ?_⟩, hf'.world,
    hf'.failure⟩
  rcases hgoing : f'.run.halted with _ | _
  · exact Or.inr ⟨hf'.ended, (hf'.going hgoing).2.1, Or.inr (hf'.waiting.trans h.waiting)⟩
  · exact Or.inl rfl

/-- While there is room the next batch is executed. -/
theorem drives_of_room {d : Descriptor} {ds : List Descriptor} {f : Flight} (h : Quiet (d :: ds) f)
    (hroom : isFull concurrency f.ended = false)
    (ih : ∀ g, Quiet ds g → Drives concurrency job source refuses s ds g) :
    Drives concurrency job source refuses s (d :: ds) f := by
  have hlt : (f.ended.length : Int) < concurrency := by simpa [isFull] using hroom
  obtain ⟨result, w, hrun⟩ : ∃ result w,
      Action.attempt (execute job source d) s f.world = (.ok result, w) := ⟨_, _, rfl⟩
  let g : Flight := { f with
    world := w, waiting := ds, submitted := f.submitted ++ [d], running := []
    ended := f.ended ++ [(d, result)] }
  have hg : Reaches concurrency job source refuses f g :=
    reaches_execute h.waiting h.running h.due h.halted h.failure hlt hrun
  have hquiet : Quiet ds g :=
    ⟨rfl, rfl, h.due, h.counted, h.halted, h.failure, by simpa [g] using h.sorted⟩
  obtain ⟨r, w', f', hdrive, hreach, hf'⟩ := ih g hquiet
  refine ⟨r, w', f', ?_, hg.trans hreach, hf'⟩
  rw [run_drive_cons hroom h.failure hrun]
  exact hdrive

/-- While there is no room what has ended is settled; if all of it goes well the next batch is
executed. -/
theorem drives_of_full (hc : 1 ≤ concurrency) {d : Descriptor} {ds : List Descriptor} {f : Flight}
    (h : Quiet (d :: ds) f) (hfull : isFull concurrency f.ended = true)
    (ih : ∀ g, Quiet ds g → Drives concurrency job source refuses s ds g) :
    Drives concurrency job source refuses s (d :: ds) f := by
  have hle : concurrency ≤ f.ended.length := by simpa [isFull] using hfull
  have hended : f.ended ≠ [] := by
    intro hnil
    rw [hnil] at hle
    simp only [List.length_nil] at hle
    omega
  have hsorted : Ascending f.ended := by
    have := (List.pairwise_append.mp h.sorted).1
    rwa [List.pairwise_map] at this
  let g : Flight := { f with ended := [], due := f.ended }
  have hg : Step concurrency job source refuses f g :=
    Step.takeSome h.halted h.failure (by rw [h.waiting]; simp) h.due
      (by simp only [inFlight]; omega) (by simp) hended hsorted
  obtain ⟨r, w, f₁, hall, hreach, hf₁⟩ :=
    @reaches_settleAll concurrency job source refuses s f.ended g rfl h.counted h.halted
  rw [Drives, run_drive_full hc hfull hall]
  rcases hfailure : r.failure.isSome with _ | _
  · have hgoing : f₁.run.halted = false := by
      rw [hf₁.halted, Bool.eq_false_iff]
      intro hh
      rw [hf₁.failed hh] at hfailure
      cases hfailure
    obtain ⟨hrun, hdue, hcounted⟩ := hf₁.going hgoing
    have hnone : f₁.ended = [] := hf₁.ended
    have hquiet : Quiet (d :: ds) f₁ := by
      refine ⟨hf₁.waiting.trans h.waiting, hf₁.running.trans h.running, hdue, hcounted, hgoing,
        ?_, ?_⟩
      · rw [hrun]
        simpa using hfailure
      · rw [hnone]
        exact (List.pairwise_append.mp h.sorted).2.1
    obtain ⟨r', w', f', hdrive, hreach', hf'⟩ :=
      drives_of_room hquiet (by rw [hnone]; exact isFull_nil hc) ih
    rw [hnone, hf₁.world, hrun] at hdrive
    exact ⟨r', w', f', hdrive, .head hg (hreach.trans hreach'), hf'⟩
  · refine ⟨r, w, f₁, rfl, .head hg hreach, ⟨hf₁.running.trans h.running, ?_⟩, hf₁.world,
      hf₁.failure⟩
    rcases hgoing : f₁.run.halted with _ | _
    · exact Or.inr ⟨hf₁.ended, (hf₁.going hgoing).2.1, Or.inl (by rw [hf₁.failure, hfailure])⟩
    · exact Or.inl rfl

/-- `Run.drive` is a run, from any quiet moment. -/
theorem drives (hc : 1 ≤ concurrency) :
    ∀ (ds : List Descriptor) (f : Flight), Quiet ds f →
      Drives concurrency job source refuses s ds f
  | [], _, h => drives_nil h
  | d :: ds, f, h => by
    have ih := drives hc ds
    rcases hfull : isFull concurrency f.ended with _ | _
    · exact drives_of_room h hfull ih
    · exact drives_of_full hc h hfull ih

end Run

end Tabula

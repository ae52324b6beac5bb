import Tabula.Proofs.Completion

/-!
# Runs that store their first batches

With at most one batch in flight the batches end in their order, and one that fails is the
last one (`Flight.InLine`). So the batches that were stored are the first ones of the run, as
they are if the store can hold the first one only (`Flight.prefix_succeeded_of_reaches`). Then
whatever checkpoint is written counts up to the end of a batch that is stored
(`Flight.SavedUpTo`, `Flight.steady_of_reaches`).
-/

namespace Tabula

namespace Flight

variable {concurrency : Int} {job : Job} {source : Source}
  {refuses : Descriptor → Failure → Prop} {f f' : Flight} {ds : List Descriptor}

/-- The batches that ended, in the order of their settlement. -/
def ordered (f : Flight) : List Finished := f.settled ++ f.due ++ f.ended

theorem ordered_perm (f : Flight) : f.ordered.Perm f.executed := by
  rw [ordered, executed]
  refine List.perm_append_comm.trans ?_
  rw [List.append_assoc]
  exact List.perm_append_comm.append_left _

/-- At most one batch can be in flight if there is room for one only, or if there is only
one. -/
theorem Placed.inFlight_le_one (hf : Placed concurrency ds f)
    (hone : concurrency = 1 ∨ ds.length ≤ 1) : f.inFlight ≤ 1 := by
  rcases hone with rfl | hlen
  · have := hf.room
    omega
  · have hwhole := congrArg List.length hf.whole
    have hperm := hf.perm.length_eq
    simp only [executed, List.length_append, List.length_map] at hwhole hperm
    rw [inFlight]
    omega

/-- The batches end in their order, and a batch that failed is the last one. -/
structure InLine (f : Flight) : Prop where
  order : f.submitted = f.ordered.map Prod.fst ++ f.running
  stops : firstFailure f.ordered = none ∨
    ∃ oks d why, f.ordered = oks ++ [(d, .error why)] ∧ firstFailure oks = none ∧
      f.running = [] ∧ (f.inFlight = 1 ∨ f.run.failure.isSome)

theorem inLine_start (w : World) (processed : Int) (ds : List Descriptor) :
    InLine (start w processed ds) := ⟨rfl, Or.inl rfl⟩

/-- The batches that succeeded are the first ones. -/
theorem InLine.prefix_succeeded (hf : InLine f) (hplaced : Placed concurrency ds f) :
    succeeded f.ordered <+: ds := by
  have hsub : f.submitted <+: ds := ⟨f.waiting, hplaced.whole⟩
  refine List.IsPrefix.trans ?_ hsub
  rw [hf.order]
  rcases hf.stops with hnone | ⟨oks, d, why, hordered, hnone, _, _⟩
  · rw [firstFailure_eq_none hnone]
    exact List.prefix_append _ _
  · rw [hordered, succeeded_append, succeeded_error, succeeded_nil, List.append_nil,
      firstFailure_eq_none hnone, List.map_append, List.append_assoc]
    exact List.prefix_append _ _

/-- A batch that ends while it is the only one in flight. -/
theorem inLine_of_ended (hf : InLine f) (hone : f.inFlight ≤ 1) {before after : List Descriptor}
    {d : Descriptor} (hrunning : f.running = before ++ d :: after) (w : World)
    (r : Except Failure Nat) :
    InLine { f with world := w, running := before ++ after, ended := f.ended ++ [(d, r)] } := by
  have hlen := congrArg List.length hrunning
  rw [List.length_append, List.length_cons] at hlen
  rw [inFlight] at hone
  obtain rfl : before = [] := List.length_eq_zero_iff.mp (by omega)
  obtain rfl : after = [] := List.length_eq_zero_iff.mp (by omega)
  have hended : f.ended = [] := List.length_eq_zero_iff.mp (by omega)
  have hdue : f.due = [] := List.length_eq_zero_iff.mp (by omega)
  have horder := hf.order
  have hstops := hf.stops
  simp only [ordered, hended, hdue, hrunning, List.append_nil, List.nil_append] at horder hstops
  have hnone : firstFailure f.settled = none := by
    rcases hstops with hnone | ⟨_, _, _, _, _, hnil, _⟩
    · exact hnone
    · cases hnil
  refine ⟨?_, ?_⟩
  · simp only [ordered, hended, hdue, horder, List.append_nil, List.nil_append, List.map_append,
      List.map_cons, List.map_nil]
  · rcases r with why | n
    · refine Or.inr ⟨f.settled, d, why, ?_, hnone, rfl, Or.inl ?_⟩
      · simp [ordered, hended, hdue]
      · simp [inFlight, hended, hdue]
    · refine Or.inl ?_
      simp only [ordered, hended, hdue, List.append_nil, List.nil_append]
      exact (firstFailure_append_ok n _).trans hnone

/-- Taking the one batch that ended. -/
theorem inLine_of_taken (hf : InLine f) (hone : f.inFlight ≤ 1) (hdue : f.due = [])
    {taken left : List Finished} (hended : f.ended.Perm (taken ++ left)) (htaken : taken ≠ []) :
    InLine { f with ended := left, due := taken } := by
  have hlen := hended.length_eq
  have hpos := List.length_pos_iff.mpr htaken
  rw [List.length_append] at hlen
  rw [inFlight] at hone
  obtain rfl : left = [] := List.length_eq_zero_iff.mp (by omega)
  obtain ⟨e, rfl⟩ := List.length_eq_one_iff.mp (show taken.length = 1 by omega)
  have heq : f.ended = [e] := List.perm_singleton.mp hended
  have hordered : ordered { f with ended := [], due := [e] } = f.ordered := by
    simp [ordered, hdue, heq]
  refine ⟨hordered ▸ hf.order, ?_⟩
  rw [hordered]
  rcases hf.stops with hnone | ⟨oks, d, why, hoks, hnone, hrunning, hstop⟩
  · exact Or.inl hnone
  · refine Or.inr ⟨oks, d, why, hoks, hnone, hrunning, ?_⟩
    simpa [inFlight, hdue, heq] using hstop

/-- The batch that is to be settled, moved to those that are settled. -/
theorem ordered_of_due {e : Finished} {rest : List Finished} (hdue : f.due = e :: rest) :
    f.settled ++ [e] ++ rest ++ f.ended = f.ordered := by
  rw [ordered, hdue]
  simp

/-- The one batch in flight, if it is to be settled. -/
theorem ordered_of_inFlight {e : Finished} {rest : List Finished} (hone : f.inFlight ≤ 1)
    (hdue : f.due = e :: rest) : f.ordered = f.settled ++ [e] := by
  rw [inFlight, hdue, List.length_cons] at hone
  obtain rfl : rest = [] := List.length_eq_zero_iff.mp (by omega)
  have hended : f.ended = [] := List.length_eq_zero_iff.mp (by omega)
  rw [← ordered_of_due hdue, hended, List.append_nil, List.append_nil]

theorem inLine_of_step (h : Step concurrency job source refuses f f') (hone : f.inFlight ≤ 1)
    (hone' : f'.inFlight ≤ 1) (hf : InLine f) : InLine f' := by
  obtain ⟨horder, hstops⟩ := hf
  cases h with
  | @submit d ds hwaiting hdue hhalted hfailure hroom =>
    refine ⟨?_, Or.inl ?_⟩
    · simp only [ordered] at horder ⊢
      rw [horder, List.append_assoc]
    · rcases hstops with hnone | ⟨_, _, _, _, _, _, hflight | hfail⟩
      · exact hnone
      · simp only [inFlight, List.length_append, List.length_cons, List.length_nil] at hone' hflight
        omega
      · rw [hfailure] at hfail
        cases hfail
  | execute s hrunning _ => exact inLine_of_ended ⟨horder, hstops⟩ hone hrunning _ _
  | refuse hrunning _ => exact inLine_of_ended ⟨horder, hstops⟩ hone hrunning f.world _
  | takeSome _ _ _ hdue _ hended htaken _ =>
    exact inLine_of_taken ⟨horder, hstops⟩ hone hdue hended htaken
  | takeAll _ _ hdue _ hended htaken _ =>
    refine inLine_of_taken ⟨horder, hstops⟩ hone hdue ?_ htaken
    rwa [List.append_nil]
  | @lose d why rest hhalted hdue =>
    have hordered := ordered_of_due hdue
    refine ⟨horder.trans (by rw [← hordered]; rfl), ?_⟩
    rcases hstops with hnone | ⟨oks, d', why', hoks, hnone, hrunning, _⟩
    · rw [ordered_of_inFlight hone hdue, firstFailure_append_error] at hnone
      cases hnone
    · refine Or.inr ⟨oks, d', why', hordered.trans hoks, hnone, hrunning, Or.inr ?_⟩
      exact Run.isSome_failure_record _ _ _
  | count => exact ⟨horder, hstops⟩
  | @mark d n rest w s _ _ hdue _ =>
    have hordered := ordered_of_due hdue
    refine ⟨horder.trans (by rw [← hordered]; rfl), ?_⟩
    rcases hstops with hnone | ⟨oks, d', why', hoks, hnone, hrunning, hstop⟩
    · exact Or.inl ((congrArg firstFailure hordered).trans hnone)
    · refine Or.inr ⟨oks, d', why', hordered.trans hoks, hnone, hrunning, Or.inr ?_⟩
      rcases hstop with hflight | hfail
      · -- the batch in flight is the last one, and it succeeded
        rw [ordered_of_inFlight hflight.le hdue] at hoks
        have hlast := (List.append_inj' hoks rfl).2
        simp at hlast
      · exact hfail
  | haltCount =>
    refine ⟨horder, hstops.imp_right ?_⟩
    rintro ⟨oks, d', why', hoks, hnone, hrunning, _⟩
    exact ⟨oks, d', why', hoks, hnone, hrunning, Or.inr (Run.isSome_failure_record _ _ _)⟩
  | haltMark =>
    refine ⟨horder, hstops.imp_right ?_⟩
    rintro ⟨oks, d', why', hoks, hnone, hrunning, _⟩
    exact ⟨oks, d', why', hoks, hnone, hrunning, Or.inr (Run.isSome_failure_record _ _ _)⟩

/-- With at most one batch in flight, the batches that succeeded are the first ones. -/
theorem prefix_succeeded_of_room {w : World} {processed : Int} (hc : 1 ≤ concurrency)
    (hone : concurrency = 1 ∨ ds.length ≤ 1)
    (h : Reaches concurrency job source refuses (start w processed ds) f) :
    succeeded f.ordered <+: ds := by
  have hline : InLine f ∧ Placed concurrency ds f := by
    induction h with
    | refl => exact ⟨inLine_start w processed ds, placed_start hc w processed⟩
    | tail _ hstep ih =>
      obtain ⟨hline, hplaced⟩ := ih
      have hplaced' := placed_of_step hstep hplaced
      exact ⟨inLine_of_step hstep (hplaced.inFlight_le_one hone) (hplaced'.inFlight_le_one hone)
        hline, hplaced'⟩
  exact hline.1.prefix_succeeded hline.2

/-! ## Positions that the store cannot hold -/

section Positions

variable {size total p : Int} {db : Database}

/-- Only the first batch of a job starts below the size of a batch. -/
theorem prefix_of_offset_lt (hs : 0 < size) (hp : IsEdge size total p) {l : List Descriptor}
    (hsub : l.Subperm (batchesFrom size total p)) (hlt : ∀ d ∈ l, d.offset < size) :
    l <+: batchesFrom size total p := by
  rcases l with _ | ⟨d, l⟩
  · exact List.nil_prefix
  have hbounds := bounds_of_mem hs (hsub.subset List.mem_cons_self)
  have hd := hlt d List.mem_cons_self
  obtain rfl : p = 0 := by
    obtain ⟨q, hq⟩ := hp.aligned.resolve_left (by omega)
    have := hp.nonneg
    obtain rfl : q = 0 := by nlinarith
    rw [hq, mul_zero]
  have hds := batchesFrom_of_lt hs (show (0 : Int) < total by omega)
  have hhead : ∀ e ∈ d :: l, e = batchAt size total 0 := by
    intro e he
    have hmem := hsub.subset he
    rw [hds] at hmem
    refine (List.mem_cons.mp hmem).resolve_right fun htail => ?_
    have := bounds_of_mem hs htail
    have := hlt e he
    omega
  have hnodup : (d :: l).Nodup := by
    obtain ⟨l', hperm, hsublist⟩ := hsub
    exact hperm.nodup_iff.mp (hsublist.nodup (nodup_batchesFrom hs))
  obtain rfl : l = [] := by
    refine List.eq_nil_iff_forall_not_mem.mpr fun e he => (List.nodup_cons.mp hnodup).1 ?_
    rwa [hhead d List.mem_cons_self, ← hhead e (List.mem_cons_of_mem d he)]
  rw [hds, hhead d List.mem_cons_self]
  exact List.prefix_append [batchAt size total 0] _

/-- If the store can hold the positions of the first batch of a job only, no other batch
succeeds. -/
theorem prefix_succeeded_of_positions (hs : 0 < size) (hexact : source.IsExact)
    (hp : IsEdge size total p) (hfull : 2 ^ 63 < job.base + min (2 * size) total)
    (hplaced : Placed concurrency (batchesFrom size total p) f)
    (hstores : Stores job source refuses db f) :
    succeeded f.ordered <+: batchesFrom size total p := by
  have hsub := hplaced.subperm f.ordered_perm.subperm
  refine prefix_of_offset_lt hs hp hsub fun d hd => ?_
  obtain ⟨_, hpos, hhigh⟩ := bounds_of_mem hs (hsub.subset hd)
  obtain ⟨n, hn⟩ := mem_succeeded.mp (((succeeded_perm f.ordered_perm).mem_iff).mp hd)
  have hstored := Run.le_of_explained hexact hpos (hstores.explained _ hn)
  have hsize := congrArg Descriptor.size (eq_batchAt_of_mem hs (hsub.subset hd))
  simp only [batchAt] at hsize
  omega

theorem length_batchesFrom_le_one (hs : 0 < size) (htotal : total ≤ size) (h0 : 0 ≤ p) :
    (batchesFrom size total p).length ≤ 1 := by
  by_cases hlt : p < total
  · rw [batchesFrom_of_lt hs hlt, batchesFrom_of_le (by omega)]
    exact le_refl _
  · rw [batchesFrom_of_le (by omega)]
    exact Nat.zero_le _

/-- The batches of a run that succeeded are the first ones, if there is room for one batch
only, or if the job has one batch only or one that the store can hold. -/
theorem prefix_succeeded_of_reaches {w : World} (hs : 0 < size) (hc : 1 ≤ concurrency)
    (hexact : source.IsExact) (hp : IsEdge size total p) (hw : w.storage = .ready db)
    (hone : concurrency = 1 ∨ total ≤ size ∨ 2 ^ 63 < job.base + min (2 * size) total)
    (h : Reaches concurrency job source refuses (start w p (batchesFrom size total p)) f) :
    succeeded f.ordered <+: batchesFrom size total p := by
  rcases or_assoc.mpr hone with hone | hfull
  · refine prefix_succeeded_of_room hc ?_ h
    exact hone.imp_right fun hle => length_batchesFrom_le_one hs hle hp.nonneg
  · have hplaced : Placed concurrency (batchesFrom size total p) (start w p _) :=
      placed_start hc w p
    exact prefix_succeeded_of_positions hs hexact hp hfull (placed_of_reaches h hplaced)
      (stores_of_reaches h (nodup_index_batchesFrom hs) hplaced (stores_start hw p _))

end Positions

/-! ## Checkpoints -/

/-- A folder in which a checkpoint of the job, if there is one, is at an edge up to `n`. -/
def SavedUpTo (size total n : Int) (job : String) (folder : Folder) : Prop :=
  ∀ today q, Checkpoint.load today job folder = .ok (some q) → IsEdge size total q ∧ q ≤ n

/-- What a step does to the folder : nothing, unless it writes the checkpoint of the batch
that was counted. -/
theorem folder_of_step (h : Step concurrency job source refuses f f') {db : Database}
    (hw : f.world.storage = .ready db) :
    f'.world.folder = f.world.folder ∨
      f.counted = true ∧ ∃ s, f'.world = (Run.mark job.id f.run.processed s f.world).2 := by
  cases h with
  | @execute before after d w r s _ hrun =>
    obtain ⟨rows, hrows⟩ := Run.exists_rows_of_execute hw job source d s
    rw [Action.run_attempt, hrows] at hrun
    exact Or.inl (congrArg World.folder (Prod.mk.inj hrun).2).symm
  | count s _ _ _ hrun =>
    obtain ⟨jobs, rfl, _⟩ := goesOn_of_run_advance hw hrun
    exact Or.inl rfl
  | haltCount s _ _ _ hrun =>
    obtain ⟨jobs, rfl, _⟩ := goesOn_of_run_advance hw hrun
    exact Or.inl rfl
  | mark s _ hcounted _ hrun => exact Or.inr ⟨hcounted, s, by rw [hrun]⟩
  | haltMark s _ hcounted _ hrun => exact Or.inr ⟨hcounted, s, by rw [hrun]⟩
  | _ => exact Or.inl rfl

/-- The rows of the batches that succeeded only become more. -/
theorem rowsIn_succeeded_mono (h : Step concurrency job source refuses f f') {db : Database}
    (hw : f.world.storage = .ready db) (hplaced : Placed concurrency ds f)
    (hsize : ∀ d ∈ ds, 0 ≤ d.size) :
    rowsIn (succeeded f.executed) ≤ rowsIn (succeeded f'.executed) := by
  rcases ended_cases h hw with ⟨before, d, after, r, hrunning, hended, _⟩ | ⟨hended, _⟩
  · rw [rowsIn_perm (succeeded_perm hended)]
    have hd : d ∈ ds := by
      rw [← hplaced.whole]
      refine List.mem_append_left _ (hplaced.perm.mem_iff.mpr (List.mem_append_left _ ?_))
      rw [hrunning]
      simp
    have := hsize d hd
    rcases r with why | n
    · exact le_refl _
    · rw [succeeded_ok, rowsIn_cons]
      omega
  · rw [rowsIn_perm (succeeded_perm hended)]

theorem rowsIn_tallied_le (hplaced : Placed concurrency ds f) (hsize : ∀ d ∈ ds, 0 ≤ d.size) :
    rowsIn f.tallied ≤ rowsIn (succeeded f.executed) := by
  have hsub : f.tallied.Subperm (succeeded f.executed) := by
    have hfirst : (f.settled ++ if f.counted then f.due.take 1 else []).Subperm f.executed := by
      refine List.Subperm.trans ?_ (subperm_executed f)
      refine (List.Sublist.append_left ?_ _).subperm
      split
      · exact List.Sublist.refl _
      · exact List.nil_sublist _
    obtain ⟨l, hperm, hsub⟩ := hfirst
    exact ⟨succeeded l, succeeded_perm hperm, hsub.filterMap _⟩
  refine rowsIn_le_of_subperm hsub fun d hd => hsize d ?_
  exact (hplaced.subperm (List.Subperm.refl f.executed)).subset hd

/-- What is counted are the first batches of those that succeeded. -/
theorem prefix_tallied (f : Flight) : f.tallied <+: succeeded f.ordered := by
  rw [ordered, List.append_assoc, tallied, succeeded_append, succeeded_append]
  refine (List.prefix_append_right_inj _).mpr ?_
  split
  · have hdue : succeeded f.due = succeeded (f.due.take 1) ++ succeeded (f.due.drop 1) := by
      rw [← succeeded_append, List.take_append_drop]
    rw [succeeded_append, hdue, List.append_assoc]
    exact List.prefix_append _ _
  · exact List.nil_prefix

variable (concurrency job source refuses) in
/-- A run of the batches from `processed` on, in a database in which rows up to `n` are
stored already. Its checkpoint counts up to what is stored. -/
structure Steady (size total processed n : Int) (db : Database) (f : Flight) : Prop where
  placed : Placed concurrency (batchesFrom size total processed) f
  stores : Stores job source refuses db f
  sum : f.run.processed = processed + rowsIn f.tallied
  saved : SavedUpTo size total (max n (processed + rowsIn (succeeded f.executed))) job.id
    f.world.folder

section Steady

variable {size total processed n : Int} {db : Database} {w : World}

theorem savedUpTo_of_step (h : Step concurrency job source refuses f f') (hs : 0 < size)
    (hsafe : Checkpoint.isSafeId job.id = true) (htotal : total < 2 ^ 63)
    (hedge : IsEdge size total processed)
    (hinitial : succeeded f.ordered <+: batchesFrom size total processed)
    (hf : Steady concurrency job source refuses size total processed n db f) :
    SavedUpTo size total (max n (processed + rowsIn (succeeded f'.executed))) job.id
      f'.world.folder := by
  obtain ⟨hplaced, hstores, hsum, hsaved⟩ := hf
  obtain ⟨new, jobs, hw, _⟩ := hstores.exists_rows
  have hsize : ∀ d ∈ batchesFrom size total processed, 0 ≤ d.size := fun d hd =>
    (bounds_of_mem hs hd).2.1.le
  have hmono := rowsIn_succeeded_mono h hw hplaced hsize
  have hold : ∀ folder, folder = f.world.folder →
      SavedUpTo size total (max n (processed + rowsIn (succeeded f'.executed))) job.id folder := by
    rintro folder rfl today q hq
    obtain ⟨hedge, hle⟩ := hsaved today q hq
    exact ⟨hedge, by omega⟩
  rcases folder_of_step h hw with hfolder | ⟨_, s, hworld⟩
  · exact hold _ hfolder
  obtain ⟨rest, hrest⟩ := f.prefix_tallied.trans hinitial
  have hnew : IsEdge size total f.run.processed := by
    rw [hsum]
    exact isEdge_of_append hs hedge hrest.symm
  have hle := hnew.le
  rw [hworld]
  rcases @Run.folder_of_mark job.id f.run.processed s f.world hsafe hnew.nonneg (by omega) with
    hfolder | hload
  · exact hold _ hfolder
  · intro today q hq
    rw [hload today] at hq
    obtain rfl := Option.some.inj (Except.ok.inj hq)
    have := rowsIn_tallied_le hplaced hsize
    exact ⟨hnew, by omega⟩

theorem steady_of_step (h : Step concurrency job source refuses f f') (hs : 0 < size)
    (hsafe : Checkpoint.isSafeId job.id = true) (htotal : total < 2 ^ 63)
    (hedge : IsEdge size total processed)
    (hinitial : succeeded f.ordered <+: batchesFrom size total processed)
    (hf : Steady concurrency job source refuses size total processed n db f) :
    Steady concurrency job source refuses size total processed n db f' where
  placed := placed_of_step h hf.placed
  stores := stores_of_step h (nodup_index_batchesFrom hs) hf.placed hf.stores
  sum := sum_of_step h hf.placed.counts hf.sum
  saved := savedUpTo_of_step h hs hsafe htotal hedge hinitial hf

theorem steady_start (hc : 1 ≤ concurrency) (hw : w.storage = .ready db)
    (hsaved : SavedUpTo size total n job.id w.folder) :
    Steady concurrency job source refuses size total processed n db
      (start w processed (batchesFrom size total processed)) where
  placed := placed_start hc w processed
  stores := stores_start hw processed _
  sum := (Int.add_zero processed).symm
  saved := by
    intro today q hq
    obtain ⟨hedge, hle⟩ := hsaved today q hq
    exact ⟨hedge, hle.trans (le_max_left n _)⟩

/-- A run is steady as long as the batches that succeeded are the first ones. -/
theorem steady_of_reaches {f₀ : Flight} (h : Reaches concurrency job source refuses f₀ f)
    (hs : 0 < size) (hsafe : Checkpoint.isSafeId job.id = true) (htotal : total < 2 ^ 63)
    (hedge : IsEdge size total processed)
    (hinitial : ∀ f, Reaches concurrency job source refuses f₀ f →
      succeeded f.ordered <+: batchesFrom size total processed)
    (hf : Steady concurrency job source refuses size total processed n db f₀) :
    Steady concurrency job source refuses size total processed n db f := by
  induction h with
  | refl => exact hf
  | tail hreach hstep ih =>
    exact steady_of_step hstep hs hsafe htotal hedge (hinitial _ hreach) ih

end Steady

end Flight

end Tabula

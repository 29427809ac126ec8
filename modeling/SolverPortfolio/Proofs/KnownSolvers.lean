import SolverPortfolio.Proofs.Ranking
import SolverPortfolio.Session

/-
# The solvers that a schedule names

On the way from a command line to a schedule no solver is named that is not in the
table: the portfolio and the backup solver are looked up when they are chosen, the
static schedule when it is read, and from then on slots are handed out, ordered,
merged and spread, but none is given to anybody else.

Main definitions: `SolverTable.Knows`.
Main statements: `Portfolio.knows_of_choose`, `StaticSchedule.load_eq_ok_iff`,
`StaticSchedule.knows_of_load`, `Selection.solver_of_mem_ofRecords`,
`Predictor.knows_of_predict`, `Plan.knows_parallelize`.
-/

namespace SolverPortfolio

/-- All these names are those of solvers in the table. -/
def SolverTable.Knows (table : SolverTable) (names : List String) : Prop :=
  ∀ name ∈ names, table.contains name = true

/-! ## What is looked up -/

/-- A portfolio is chosen from the table, and so is its backup solver. -/
theorem Portfolio.knows_of_choose {table : SolverTable} {names backup : Option String}
    {p : Portfolio} (h : choose table names backup = .ok p) :
    table.Knows p.solvers ∧ table.contains p.backup = true := by
  unfold choose at h
  dsimp only at h
  split at h
  · cases h
  · split at h
    · cases h
    · next hfind =>
      cases h
      have hknown : table.Knows _ := fun name hname => by
        simpa using List.find?_eq_none.mp hfind name hname
      exact ⟨fun name hname => hknown name (List.mem_append_left _ hname),
        hknown _ (List.mem_append_right _ (List.mem_singleton_self _))⟩

/-- A static schedule is accepted with its neighbouring slots joined if it can be read, names
solvers of the table and lasts no longer than the timeout. -/
theorem StaticSchedule.load_eq_ok_iff {text : List Char} {table : SolverTable} {timeout : Float}
    {slots : Schedule Float} : load text table timeout = .ok slots ↔
      ∃ parsed, parse text = .ok parsed ∧ (∀ slot ∈ parsed, table.contains slot.solver = true) ∧
        ¬ timeout < Schedule.totalSeconds parsed ∧ Schedule.merge parsed [] = slots := by
  unfold load
  constructor
  · intro h
    split at h
    · cases h
    · next parsed hparse =>
      split at h
      · cases h
      · next hvalid =>
        unfold validate at hvalid
        split at hvalid
        · cases hvalid
        · next hfind =>
          simp only at hvalid
          split at hvalid
          · cases hvalid
          · next hlt =>
            refine ⟨parsed, hparse, fun slot hslot => ?_, hlt, Except.ok.inj h⟩
            simpa using List.find?_eq_none.mp hfind slot hslot
  · rintro ⟨parsed, hparse, hknown, hlt, rfl⟩
    have hfind : parsed.find? (fun slot => !table.contains slot.solver) = none :=
      List.find?_eq_none.mpr fun slot hslot => by simp [hknown slot hslot]
    have hvalid : validate parsed table timeout = .ok () := by
      simp only [validate, hfind]
      exact if_neg hlt
    simp only [hparse, hvalid]

/-- A static schedule that is accepted names solvers of the table. -/
theorem StaticSchedule.knows_of_load {text : List Char} {table : SolverTable} {timeout : Float}
    {schedule : Schedule Float} (h : load text table timeout = .ok schedule) :
    table.Knows (schedule.map (·.solver)) := by
  obtain ⟨parsed, -, hknown, -, rfl⟩ := load_eq_ok_iff.mp h
  intro name hname
  rcases Schedule.mem_solvers_merge.mp hname with hname | hname
  · obtain ⟨slot, hslot, rfl⟩ := List.mem_map.mp hname
    exact hknown slot hslot
  · cases hname

/-! ## What is selected -/

namespace Selection

variable {α : Type} [Quantity α]

/-- A scan ends with one of the candidates, or with what it began with. -/
theorem mem_or_eq_of_scan {candidates : List (Candidate α)} {c : Candidate α}
    {found : Option (Candidate α)} (h : candidates.foldl
      (fun best c => if c.improvesOn best then some c else best) found = some c) :
    c ∈ candidates ∨ found = some c := by
  induction candidates generalizing found with
  | nil => exact .inr h
  | cons first rest ih =>
    rcases ih h with hrest | hfound
    · exact .inl (List.mem_cons_of_mem _ hrest)
    · dsimp only at hfound
      split at hfound
      · cases hfound
        exact .inl List.mem_cons_self
      · exact .inr hfound

/-- The best candidate is one of the candidates. -/
theorem mem_of_best {candidates : List (Candidate α)} {c : Candidate α}
    (h : best candidates = some c) : c ∈ candidates :=
  (mem_or_eq_of_scan h).resolve_right nofun

/-- The members of the best sub-portfolio are solvers of the portfolio. -/
theorem subset_of_bestSubPortfolio {size minSize : Nat} {useArea : Bool}
    {records : List (TrackRecord α)} {c : Candidate α}
    (h : bestSubPortfolio size minSize useArea records = some c) : c.members ⊆ records := by
  obtain ⟨members, hmembers, rfl⟩ := List.mem_map.mp (mem_of_best h)
  obtain ⟨k, -, hsubset⟩ := List.mem_flatMap.mp hmembers
  exact (Combination.sublist_of_mem_subsets hsubset).1.subset

/-- Time is handed out to members, and to the backup solver. -/
theorem solver_of_mem_allocate {size : Nat} {q : SelectionQuery α}
    {records members : List (TrackRecord α)} {gain : α} {slot : Slot α}
    (h : slot ∈ allocate size q records members gain) :
    (∃ r ∈ members, r.solver = slot.solver) ∨ slot.solver = q.backup := by
  have hmember {slot : Slot α} {n : α}
      (h : slot.solver ∈ (memberSlots q.timeout n members).map (·.solver)) :
      ∃ r ∈ members, r.solver = slot.solver := by
    obtain ⟨other, hother, hsolver⟩ := List.mem_map.mp h
    obtain ⟨r, hr, hslot⟩ := List.mem_filterMap.mp hother
    dsimp only at hslot
    split at hslot
    · cases hslot
    · cases hslot
      exact ⟨r, hr, hsolver⟩
  have hgiven := List.mem_map_of_mem (f := (·.solver)) ((sortByTime_perm _ _).mem_iff.mp h)
  unfold giveLeftover at hgiven
  dsimp only at hgiven
  split at hgiven
  · rw [solvers_addSeconds] at hgiven
    split at hgiven
    · exact .inl (hmember hgiven)
    · exact (List.mem_append.mp hgiven).imp hmember List.mem_singleton.mp
  · exact .inl (hmember hgiven)

/-- A selection names solvers of the portfolio, and the backup solver. -/
theorem solver_of_mem_ofRecords {size : Nat} {q : SelectionQuery α} {useArea : Bool}
    {records : List (TrackRecord α)} {slot : Slot α}
    (h : slot ∈ (ofRecords size q useArea records).schedule) :
    (∃ r ∈ records, r.solver = slot.solver) ∨ slot.solver = q.backup := by
  unfold ofRecords at h
  split at h
  · exact .inr (List.mem_singleton.mp h ▸ rfl)
  · cases hbest : bestSubPortfolio size q.minSize useArea records with
    | some c =>
      rw [hbest] at h
      refine (solver_of_mem_allocate h).imp_left ?_
      rintro ⟨r, hr, hsolver⟩
      exact ⟨r, subset_of_bestSubPortfolio hbest hr, hsolver⟩
    | none =>
      rw [hbest] at h
      refine (solver_of_mem_allocate h).imp_left ?_
      rintro ⟨r, hr, -⟩
      cases hr

end Selection

/-- A forecast names the solvers of the portfolio and of the fixed schedule, and the backup
solver. -/
theorem Predictor.knows_of_predict {table : SolverTable} {p : Predictor} {features : Features}
    {goal : Goal} {forecast : Forecast} (h : p.predict features goal = .ok forecast)
    (hportfolio : table.Knows p.portfolio) (hbackup : table.contains p.backup = true)
    (hfixed : table.Knows (p.fixed.map (·.solver))) :
    table.Knows (forecast.plan.fixed.map (·.solver)) ∧
      table.Knows (forecast.plan.predicted.map (·.solver)) := by
  have hselect (neighborhood : List (Entry Float)) (timeout : Float) :
      table.Knows ((p.select goal neighborhood timeout).schedule.map (·.solver)) := by
    have hrecords {size : Nat} {useArea : Bool} {record : String → TrackRecord Float}
        (hrecord : ∀ solver, (record solver).solver = solver) : table.Knows ((Selection.ofRecords
          size (p.query timeout) useArea (p.portfolio.map record)).schedule.map (·.solver)) := by
      intro name hname
      obtain ⟨slot, hslot, rfl⟩ := List.mem_map.mp hname
      rcases Selection.solver_of_mem_ofRecords hslot with ⟨r, hr, hsolver⟩ | hsolver
      · obtain ⟨solver, hmem, rfl⟩ := List.mem_map.mp hr
        exact hsolver ▸ (hrecord solver).symm ▸ hportfolio solver hmem
      · exact hsolver ▸ hbackup
    unfold select
    split
    · split
      · exact hrecords fun _ => rfl
      · exact hrecords fun _ => rfl
    · exact fun name hname => by cases hname
  unfold predict at h
  dsimp only at h
  split at h
  · cases h
  · split at h
    · cases h
    · split at h
      · cases h
      · cases h
        exact ⟨hfixed, hselect _ _⟩

/-- Cores and slots go to the solvers of the plan. -/
theorem Plan.knows_parallelize {α : Type} [Quantity α] {table : SolverTable} {plan : Plan α}
    (hfixed : table.Knows (plan.fixed.map (·.solver)))
    (hpredicted : table.Knows (plan.predicted.map (·.solver))) (cores : Nat) (timeout : α) :
    table.Knows (plan.parallelize cores timeout).dedicated ∧
      table.Knows ((plan.parallelize cores timeout).shared.map (·.solver)) := by
  constructor
  · intro name hname
    obtain ⟨slot, hslot, rfl⟩ := List.mem_map.mp hname
    exact hpredicted _ (List.mem_map_of_mem (List.mem_mergeSort.mp (List.mem_of_mem_take hslot)))
  · intro name hname
    rcases Schedule.mem_solvers_merge.mp hname with hname | hname
    · rw [solvers_sharedFixed] at hname
      exact hfixed name hname
    · rw [solvers_rescale] at hname
      exact hpredicted name (List.map_subset _ (List.filter_subset_self _) hname)

end SolverPortfolio

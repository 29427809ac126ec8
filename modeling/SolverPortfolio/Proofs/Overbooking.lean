import SolverPortfolio.Proofs.Allocation
import SolverPortfolio.Proofs.Loading

/-
# Overbooked timeouts

The rules that a recorded run obeys when a knowledge base is loaded say whether there is
a score, but not how large it is. A score above one makes the gain of a sub-portfolio
exceed the number of neighbours, and then its members may ask for more shares of the
timeout than there are. Scores that are not negative leave every slot with time, and the
schedule stays within the timeout exactly if the members that are served ask for no more
shares than there are; scores between zero and one always do.

Main definitions: `Entry.rescore`, `Selection.demand`, `Selection.supply`,
`Selection.served`.
Main statements: `Entry.violation?_rescore`, `KnowledgeBase.violation?_of_parse`,
`Selection.within_timeout_iff`, `Selection.loaded_schedule`,
`Selection.exists_overbooked`.
-/

namespace SolverPortfolio

/-! ## What the rules do not look at -/

/-- A recorded run with another score, if it has one. -/
def Outcome.rescore {α : Type} (f : α → α) (o : Outcome α) : Outcome α :=
  { o with score := o.score.map f }

/-- An instance with other scores. -/
def Entry.rescore {α : Type} (f : α → α) (entry : Entry α) : Entry α :=
  { entry with outcomes := entry.outcomes.map fun p => (p.1, p.2.rescore f) }

section

variable {α : Type} [Quantity α]

/-- The rules do not look at the size of a score. -/
theorem Outcome.violated?_rescore (f : α → α) (o : Outcome α) (timeout : Option α) :
    (o.rescore f).violated? timeout = o.violated? timeout := by
  have hkind : (o.rescore f).isOptimization = o.isOptimization := by
    simp [isOptimization, rescore]
  unfold violated?
  rw [hkind]
  rfl

/-- With other scores an instance violates the same rules. -/
theorem Entry.violation?_rescore (f : α → α) (entry : Entry α) (timeout : Option α) :
    (entry.rescore f).violation? timeout = entry.violation? timeout := by
  simp only [violation?, rescore, List.findSome?_map, Function.comp_def,
    Outcome.violated?_rescore]

namespace KnowledgeBase

/-- A knowledge base that is loaded with checks violates no rule. -/
theorem violation?_of_parse {options : LoadOptions α} (hchecked : options.checked = true)
    {text : List Char} {kb : KnowledgeBase α} (h : parse options text = .ok kb) :
    ∀ entry ∈ kb.entries, entry.violation? options.timeout = none := by
  intro entry hentry
  exact Entry.violation?_eq_none_iff.mpr ((parse_eq_ok_iff.mp h).passes entry hentry hchecked)

end KnowledgeBase

end

namespace Selection

/-! ## Demand and supply of shares -/

section

variable (neighbors : List (Entry Rat))

/-- The shares of the timeout that solvers ask for: all their scores on a neighbourhood. -/
def demand (solvers : List String) : Rat :=
  (solvers.map fun solver => (neighbors.map (·.scoreOf solver)).sum).sum

/-- The shares of the timeout that there are for a sub-portfolio: those that its solvers ask for,
and one for every neighbour that it gains nothing from. -/
def supply (solvers : List String) : Rat :=
  demand neighbors solvers +
    (neighbors.length - (neighbors.map (·.bestScore solvers)).sum)

/-- The solvers that are served: those whose shares come to half a second or more. -/
def served (timeout : Rat) (solvers : List String) : List String :=
  solvers.filter fun solver =>
    1 / 2 ≤ timeout / supply neighbors solvers * demand neighbors [solver]

end

section

variable {neighbors : List (Entry Rat)} {timeout : Rat}

/-- The credit of a solver is what it asks for. -/
theorem totalCredit_scoredRecord (solver : String) :
    totalCredit (scoredRecord neighbors timeout solver) = demand neighbors [solver] := by
  rw [totalCredit_rat, credits_scoredRecord, demand, List.map_singleton, List.sum_singleton]

/-- The credit of solvers is what they ask for. -/
theorem sum_totalCredit_scoredRecord (solvers : List String) :
    ((solvers.map (scoredRecord neighbors timeout)).map totalCredit).sum =
      demand neighbors solvers := by
  rw [List.map_map, demand]
  refine congrArg List.sum (List.map_congr_left fun solver _ => ?_)
  rw [Function.comp_apply, totalCredit_rat, credits_scoredRecord]

/-- The number of shares is the supply. -/
theorem shares_scoredRecord (solvers : List String) :
    shares neighbors.length (solvers.map (scoredRecord neighbors timeout))
      (gain neighbors.length (solvers.map (scoredRecord neighbors timeout))) =
        supply neighbors solvers := by
  rw [shares_rat, sum_totalCredit_scoredRecord, gain_eq (credits_scoredRecord neighbors timeout)]
  rfl

/-- The members kept are the solvers that are served. -/
theorem keptCredit_scoredRecord {solvers : List String}
    (hrate : 0 ≤ timeout / supply neighbors solvers)
    (hscores : ∀ solver ∈ solvers, 0 ≤ demand neighbors [solver]) :
    keptCredit timeout (supply neighbors solvers) (solvers.map (scoredRecord neighbors timeout)) =
      demand neighbors (served neighbors timeout solvers) := by
  rw [keptCredit, List.filter_map, sum_totalCredit_scoredRecord, served]
  refine congrArg (demand neighbors) (List.filter_congr fun solver hsolver => ?_)
  rw [Function.comp_apply, Bool.eq_iff_iff, decide_eq_true_eq,
    isKept_iff hrate (by rw [totalCredit_scoredRecord]; exact hscores solver hsolver),
    totalCredit_scoredRecord]

/-- Scores that are not negative make no demand negative. -/
theorem demand_singleton_nonneg {solver : String}
    (hscores : ∀ entry ∈ neighbors, 0 ≤ entry.scoreOf solver) : 0 ≤ demand neighbors [solver] := by
  rw [demand, List.map_singleton, List.sum_singleton]
  refine List.sum_nonneg fun x hx => ?_
  obtain ⟨entry, hentry, rfl⟩ := List.mem_map.mp hx
  exact hscores entry hentry

end

section

variable {neighbors : List (Entry Rat)} {q : SelectionQuery Rat}

/-- Members are the records of their solvers. -/
theorem Tracks.map_record {record : String → TrackRecord Rat} {members : List (TrackRecord Rat)}
    (h : Tracks neighbors q.timeout record) (hmembers : members.Sublist (q.portfolio.map record)) :
    (members.map (·.solver)).map record = members := by
  rw [List.map_map]
  refine (List.map_congr_left fun r hr => ?_).trans (List.map_id members)
  obtain ⟨solver, -, rfl⟩ := List.mem_map.mp (hmembers.subset hr)
  rw [Function.comp_apply, h.solver]
  rfl

/-- Without a portfolio the backup solver has the whole timeout. -/
theorem forOptimization_of_nil (h : q.portfolio = []) :
    forOptimization neighbors q = ⟨[], [⟨q.backup, q.timeout⟩]⟩ := by
  rw [forOptimization, h]
  exact if_pos (Or.inr rfl)

/-- If no score is negative, then all slots have time, and the schedule stays within the timeout
exactly if the solvers served ask for no more shares than there are. -/
theorem within_timeout_iff (htimeout : 0 < q.timeout) (hneighbors : neighbors ≠ [])
    (hdistinct : q.portfolio.Nodup)
    (hscores : ∀ entry ∈ neighbors, ∀ solver ∈ q.portfolio, 0 ≤ entry.scoreOf solver) :
    (∀ slot ∈ (forOptimization neighbors q).schedule, 0 < slot.seconds) ∧
      (Schedule.totalSeconds (forOptimization neighbors q).schedule ≤ q.timeout ↔
        demand neighbors
            (served neighbors q.timeout (forOptimization neighbors q).subPortfolio) ≤
          supply neighbors (forOptimization neighbors q).subPortfolio) := by
  by_cases hportfolio : q.portfolio = []
  · rw [forOptimization_of_nil hportfolio]
    refine ⟨by simpa using htimeout, iff_of_true (by simp [Schedule.totalSeconds_rat]) ?_⟩
    simp [served, supply, demand, Entry.bestScore]
  · have htracks := tracks_scoredRecord neighbors q.timeout
    have hcredits : ∀ solver ∈ q.portfolio,
        ∀ x ∈ (scoredRecord neighbors q.timeout solver).credits, 0 ≤ x := fun solver hsolver =>
      (forall_credits_scoredRecord neighbors q.timeout solver).mpr fun entry hentry =>
        hscores entry hentry solver hsolver
    obtain ⟨members, hmembers, hbest, happortions, hle, htotal⟩ :=
      htracks.exists_apportions htimeout hneighbors hportfolio hdistinct hcredits true
    have hsub : (forOptimization neighbors q).subPortfolio = members.map (·.solver) := by
      rw [forOptimization, ofRecords_eq (mt List.length_eq_zero_iff.mp hneighbors)
        (mt List.map_eq_nil_iff.mp hportfolio) hbest]
      rfl
    have hasked : ∀ solver ∈ members.map (·.solver), 0 ≤ demand neighbors [solver] :=
      fun solver hsolver => demand_singleton_nonneg fun entry hentry =>
        hscores entry hentry solver ((htracks.sublist hmembers).subset hsolver)
    -- The members are the records of the sub-portfolio, which say what its solvers ask for.
    rw [← htracks.map_record hmembers, shares_scoredRecord] at hle htotal
    have hrate := div_nonneg htimeout.le ((Nat.cast_nonneg neighbors.length).trans hle)
    rw [keptCredit_scoredRecord hrate hasked] at htotal
    rw [hsub]
    exact ⟨happortions.positive, htotal⟩

/-- Scores between zero and one keep the schedule within the timeout. -/
theorem within_timeout (htimeout : 0 < q.timeout) (hneighbors : neighbors ≠ [])
    (hdistinct : q.portfolio.Nodup)
    (hscores : ∀ entry ∈ neighbors, ∀ solver ∈ q.portfolio,
      0 ≤ entry.scoreOf solver ∧ entry.scoreOf solver ≤ 1) :
    Schedule.totalSeconds (forOptimization neighbors q).schedule ≤ q.timeout := by
  by_cases hportfolio : q.portfolio = []
  · rw [forOptimization_of_nil hportfolio]
    simp [Schedule.totalSeconds_rat]
  · refine ((tracks_scoredRecord neighbors q.timeout).conserves htimeout hneighbors hportfolio
      hdistinct (fun solver hsolver => ?_) true).1.bounded
    exact (forall_credits_scoredRecord neighbors q.timeout solver).mpr fun entry hentry =>
      hscores entry hentry solver hsolver

/-- The rules that a knowledge base is checked for when it is loaded would let pass any scores in
place of the recorded ones. As long as no score is negative, every slot has time, and the schedule
stays within the timeout exactly if the solvers served ask for no more shares than there are, and so
it does if no score is above one either. -/
theorem loaded_schedule {options : LoadOptions Rat} {text : List Char} {kb : KnowledgeBase Rat}
    (hload : KnowledgeBase.parse options text = .ok kb) (hchecked : options.checked = true)
    (hkb : ∀ entry ∈ neighbors, entry ∈ kb.entries) (hneighbors : neighbors ≠ [])
    (hdistinct : q.portfolio.Nodup) (htimeout : 0 < q.timeout) :
    (∀ (f : Rat → Rat), ∀ entry ∈ neighbors,
      (entry.rescore f).violation? options.timeout = none) ∧
    ((∀ entry ∈ neighbors, ∀ solver ∈ q.portfolio, 0 ≤ entry.scoreOf solver) →
      (∀ slot ∈ (forOptimization neighbors q).schedule, 0 < slot.seconds) ∧
      (Schedule.totalSeconds (forOptimization neighbors q).schedule ≤ q.timeout ↔
        demand neighbors
            (served neighbors q.timeout (forOptimization neighbors q).subPortfolio) ≤
          supply neighbors (forOptimization neighbors q).subPortfolio) ∧
      ((∀ entry ∈ neighbors, ∀ solver ∈ q.portfolio, entry.scoreOf solver ≤ 1) →
        Schedule.totalSeconds (forOptimization neighbors q).schedule ≤ q.timeout)) := by
  refine ⟨fun f entry hentry => ?_, fun hnonneg => ?_⟩
  · rw [Entry.violation?_rescore]
    exact KnowledgeBase.violation?_of_parse hchecked hload entry (hkb entry hentry)
  · obtain ⟨hpositive, hiff⟩ := within_timeout_iff htimeout hneighbors hdistinct hnonneg
    refine ⟨hpositive, hiff, fun hone => ?_⟩
    exact within_timeout htimeout hneighbors hdistinct fun entry hentry solver hsolver =>
      ⟨hnonneg entry hentry solver hsolver, hone entry hentry solver hsolver⟩

end

/-! ## One recorded run -/

/-- The text of a knowledge base with one run, which has a given score. -/
def scoredText (score : String) : List Char :=
  ("i1|[0.0]|\x7b\"a\": \x7b\"time\": 1, \"goal\": \"min\", \"info\": \"opt\", \"val\": 3, " ++
    "\"score\": " ++ score ++ ", \"area\": 0\x7d\x7d").toList

/-- The solver of the run is selected for ten seconds, and is the backup solver, too. -/
def loneQuery : SelectionQuery Rat := ⟨["a"], "a", 10, 1⟩

/-- A run with half a score is loaded with checks, and the solver has ten seconds. -/
theorem lone_schedule : ∃ kb : KnowledgeBase Rat,
    KnowledgeBase.parse ⟨some 10, true⟩ (scoredText "0.5") = .ok kb ∧ kb.entries ≠ [] ∧
      loneQuery.portfolio.Nodup ∧ 0 < loneQuery.timeout ∧
      (∀ entry ∈ kb.entries, ∀ solver ∈ loneQuery.portfolio,
        0 ≤ entry.scoreOf solver ∧ entry.scoreOf solver ≤ 1) ∧
      (∀ f : Rat → Rat, ∀ entry ∈ kb.entries, (entry.rescore f).violation? (some 10) = none) ∧
      (∀ slot ∈ (forOptimization kb.entries loneQuery).schedule, 0 < slot.seconds) ∧
      Schedule.totalSeconds (forOptimization kb.entries loneQuery).schedule ≤ 10 := by
  have hread : (KnowledgeBase.parse ⟨some (10 : Rat), true⟩ (scoredText "0.5")).toOption.any
      (fun kb => !kb.entries.isEmpty && kb.entries.all fun entry =>
        loneQuery.portfolio.all fun solver =>
          decide (0 ≤ entry.scoreOf solver ∧ entry.scoreOf solver ≤ 1)) = true := by
    decide +kernel
  obtain ⟨kb, hload, hkb⟩ := KnowledgeBase.exists_of_any hread
  simp only [Bool.and_eq_true, Bool.not_eq_true', List.isEmpty_eq_false_iff, List.all_eq_true,
    decide_eq_true_eq] at hkb
  obtain ⟨hneighbors, hscores⟩ := hkb
  have hdistinct : loneQuery.portfolio.Nodup := List.nodup_singleton "a"
  have htimeout : 0 < loneQuery.timeout := by decide +kernel
  obtain ⟨hrules, hschedule⟩ :=
    loaded_schedule hload rfl (fun _ => id) hneighbors hdistinct htimeout
  obtain ⟨hpositive, -, hbounded⟩ := hschedule fun entry hentry solver hsolver =>
    (hscores entry hentry solver hsolver).1
  exact ⟨kb, hload, hneighbors, hdistinct, htimeout, hscores, hrules, hpositive,
    hbounded fun entry hentry solver hsolver => (hscores entry hentry solver hsolver).2⟩

/-- A run with the score two is loaded with the same checks, and the solver is given twenty of ten
seconds. -/
theorem exists_overbooked : ∃ kb : KnowledgeBase Rat,
    KnowledgeBase.parse ⟨some 10, true⟩ (scoredText "2") = .ok kb ∧ kb.entries ≠ [] ∧
      loneQuery.portfolio.Nodup ∧ 0 < loneQuery.timeout ∧ loneQuery.timeout = 10 ∧
      Schedule.totalSeconds (forOptimization kb.entries loneQuery).schedule = 20 := by
  have hread : (KnowledgeBase.parse ⟨some (10 : Rat), true⟩ (scoredText "2")).toOption.any
      (fun kb => !kb.entries.isEmpty &&
        decide (Schedule.totalSeconds (forOptimization kb.entries loneQuery).schedule = 20)) =
          true := by
    decide +kernel
  obtain ⟨kb, hload, hkb⟩ := KnowledgeBase.exists_of_any hread
  simp only [Bool.and_eq_true, Bool.not_eq_true', List.isEmpty_eq_false_iff,
    decide_eq_true_eq] at hkb
  exact ⟨kb, hload, hkb.1, List.nodup_singleton "a", by decide +kernel, rfl, hkb.2⟩

end Selection

end SolverPortfolio

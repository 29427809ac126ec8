import Mathlib.Algebra.Order.BigOperators.Group.List
import Mathlib.Data.List.MinMax
import Mathlib.Data.Nat.Choose.Bounds
import Mathlib.Data.Prod.Lex
import SolverPortfolio.Proofs.ExactQuantity
import SolverPortfolio.Proofs.Ranking
import SolverPortfolio.Selection

/-
# The merit of sub-portfolios

The merit of a sub-portfolio on a neighbourhood is its gain, its time and its area: for
problems without objective the number of neighbours that some member solves, with one the
best scores of the members, summed up. The selection looks at all sub-portfolios of the
sizes asked for and takes the first one, in the order of sizes and then of places in the
portfolio, among those with the highest gain, the lowest time and the lowest area.

Main definitions: `Merit`, `Merit.Beats`, `Merit.solving`, `Merit.scoring`,
`Selection.FirstBest`.
Main statements: `Selection.best_map`, `Selection.exists_firstBest`,
`Selection.subPortfolio_firstBest`.
-/

namespace SolverPortfolio

/-! ## Merits -/

/-- How good a sub-portfolio is. -/
structure Merit where
  gain : Rat
  time : Rat
  area : Rat
  deriving DecidableEq

namespace Merit

/-- A merit is better if the gain is higher, or else the time lower, or else the area lower. -/
def Beats (a b : Merit) : Prop :=
  b.gain < a.gain ∨ a.gain = b.gain ∧ (a.time < b.time ∨ a.time = b.time ∧ a.area < b.area)

/-- The place of a merit in the order from good to bad. -/
def key (a : Merit) : Rat ×ₗ Rat ×ₗ Rat := toLex (-a.gain, toLex (a.time, a.area))

/-- The better merit comes first. -/
theorem key_lt_key {a b : Merit} : a.key < b.key ↔ a.Beats b := by
  simp only [key, Prod.Lex.toLex_lt_toLex, neg_lt_neg_iff, neg_inj, Beats]

end Merit

/-! ## Outcomes on neighbours -/

namespace Entry

/-- The time a solver took on an instance; if it was not run there, the timeout. -/
def timeOf (entry : Entry Rat) (timeout : Rat) (solver : String) : Rat :=
  ((entry.outcome? solver).map (·.time)).getD timeout

/-- The score of a solver on an instance; if there is none, zero. -/
def scoreOf (entry : Entry Rat) (solver : String) : Rat :=
  ((entry.outcome? solver).bind (·.score)).getD 0

/-- The area of a solver on an instance; if there is none, zero. -/
def areaOf (entry : Entry Rat) (solver : String) : Rat :=
  ((entry.outcome? solver).bind (·.area)).getD 0

/-- Does some solver solve the instance before the timeout? -/
def isSolved (entry : Entry Rat) (timeout : Rat) (solvers : List String) : Bool :=
  solvers.any fun solver => entry.timeOf timeout solver < timeout

/-- The best score of the solvers on an instance, and at least zero. -/
def bestScore (entry : Entry Rat) (solvers : List String) : Rat :=
  (solvers.map entry.scoreOf).foldl max 0

end Entry

namespace Merit

variable (neighbors : List (Entry Rat)) (timeout : Rat) (solvers : List String)

/-- The time that a solver took on a neighbourhood. -/
def timeOn (solver : String) : Rat := (neighbors.map (·.timeOf timeout solver)).sum

/-- All the time that solvers took on a neighbourhood. -/
def totalTime : Rat := (solvers.map (timeOn neighbors timeout)).sum

/-- The merit for a problem without objective: how many neighbours are solved. -/
def solving : Merit where
  gain := neighbors.countP (·.isSolved timeout solvers)
  time := totalTime neighbors timeout solvers
  area := 0

/-- The merit for a problem with an objective: the best scores on the neighbours. -/
def scoring : Merit where
  gain := (neighbors.map (·.bestScore solvers)).sum
  time := totalTime neighbors timeout solvers
  area := (solvers.map fun solver => (neighbors.map (·.areaOf solver)).sum).sum

end Merit

namespace Selection

/-! ## Track records -/

/-- Adding numbers one by one gives their sum. -/
theorem foldl_eq_sum {β : Type} {step : Rat → β → Rat} {f : β → Rat}
    (h : ∀ total b, step total b = total + f b) (bs : List β) :
    bs.foldl step 0 = (bs.map f).sum := by
  rw [List.sum_eq_foldl, List.foldl_map, funext fun total => funext (h total)]

section

variable (neighbors : List (Entry Rat)) (timeout : Rat) (solver : String)

/-- A solver has credit for the neighbours that it solves. -/
theorem credits_solvedRecord : (solvedRecord neighbors timeout solver).credits =
    neighbors.map fun entry => if entry.timeOf timeout solver < timeout then 1 else 0 := by
  simp only [solvedRecord, List.map_map]
  refine List.map_congr_left fun entry _ => ?_
  simp only [Function.comp_apply, Quantity.lt_rat, Quantity.ofNat_rat, Nat.cast_one]
  unfold Entry.timeOf
  cases entry.outcome? solver <;> rfl

/-- A solver has its scores as credit. -/
theorem credits_scoredRecord : (scoredRecord neighbors timeout solver).credits =
    neighbors.map (·.scoreOf solver) := by
  simp only [scoredRecord, List.map_map]
  rfl

/-- What holds of the scores of a solver holds of its credits. -/
theorem forall_credits_scoredRecord {P : Rat → Prop} :
    (∀ x ∈ (scoredRecord neighbors timeout solver).credits, P x) ↔
      ∀ entry ∈ neighbors, P (entry.scoreOf solver) := by
  rw [credits_scoredRecord, List.forall_mem_map]

/-- The time of a record is the time on all neighbours. -/
theorem time_solvedRecord : (solvedRecord neighbors timeout solver).time =
    Merit.timeOn neighbors timeout solver := by
  simp only [solvedRecord, List.foldl_map]
  refine foldl_eq_sum (fun total entry => ?_) neighbors
  unfold Entry.timeOf
  cases entry.outcome? solver <;> rfl

/-- The time of a record is the time on all neighbours. -/
theorem time_scoredRecord : (scoredRecord neighbors timeout solver).time =
    Merit.timeOn neighbors timeout solver := by
  simp only [scoredRecord, List.foldl_map]
  refine foldl_eq_sum (fun total entry => ?_) neighbors
  unfold Entry.timeOf
  cases entry.outcome? solver <;> rfl

/-- The area of a record is the area on all neighbours. -/
theorem area_scoredRecord : (scoredRecord neighbors timeout solver).area =
    (neighbors.map (·.areaOf solver)).sum := by
  simp only [scoredRecord, List.foldl_map]
  refine foldl_eq_sum (fun total entry => ?_) neighbors
  unfold Entry.areaOf
  cases entry.outcome? solver with
  | some o => rfl
  | none => exact (add_zero total).symm

end

/-! ## Rating -/

/-- The best credits of solvers on the neighbours, from those that others have there. -/
theorem foldl_larger {neighbors : List (Entry Rat)} {record : String → TrackRecord Rat}
    {credit : Entry Rat → String → Rat}
    (hcredits : ∀ solver, (record solver).credits = neighbors.map fun entry => credit entry solver)
    (solvers : List String) (had : Entry Rat → Rat) :
    (solvers.map record).foldl (fun best r => best.zipWith Quantity.larger r.credits)
        (neighbors.map had) =
      neighbors.map fun entry => (solvers.map (credit entry)).foldl max (had entry) := by
  induction solvers generalizing had with
  | nil => rfl
  | cons solver solvers ih =>
    rw [List.map_cons, List.foldl_cons, hcredits, List.zipWith_map, List.zipWith_self]
    simp only [Quantity.larger_rat]
    exact ih fun entry => max (had entry) (credit entry solver)

/-- The gain is the sum of the best credits on the neighbours. -/
theorem gain_eq {neighbors : List (Entry Rat)} {record : String → TrackRecord Rat}
    {credit : Entry Rat → String → Rat}
    (hcredits : ∀ solver, (record solver).credits = neighbors.map fun entry => credit entry solver)
    (solvers : List String) : gain neighbors.length (solvers.map record) =
      (neighbors.map fun entry => (solvers.map (credit entry)).foldl max 0).sum := by
  rw [gain, Quantity.sum_rat, ← foldl_larger hcredits solvers fun _ => 0, List.map_const']

/-- What the larger of a best and another credit is like, the best credits of solvers are. -/
theorem forall_mem_foldl_larger {P Q : Rat → Prop} (h : ∀ x y, P x → Q y → P (max x y))
    {members : List (TrackRecord Rat)} (hmembers : ∀ r ∈ members, ∀ y ∈ r.credits, Q y)
    {best : List Rat} (hbest : ∀ x ∈ best, P x) :
    ∀ x ∈ members.foldl (fun best r => best.zipWith Quantity.larger r.credits) best, P x := by
  induction members generalizing best with
  | nil => exact hbest
  | cons r members ih =>
    rw [List.forall_mem_cons] at hmembers
    refine ih hmembers.2 fun x hx => ?_
    obtain ⟨i, hi, rfl⟩ := List.mem_iff_getElem.mp hx
    rw [List.length_zipWith, Nat.lt_min] at hi
    rw [List.getElem_zipWith, Quantity.larger_rat]
    exact h _ _ (hbest _ (List.getElem_mem hi.1)) (hmembers.1 _ (List.getElem_mem hi.2))

/-- The gain of any solvers is at least zero. -/
theorem gain_nonneg (size : Nat) (members : List (TrackRecord Rat)) : 0 ≤ gain size members := by
  rw [gain, Quantity.sum_rat]
  refine List.sum_nonneg (forall_mem_foldl_larger (Q := fun _ => True) ?_ ?_ ?_)
  · exact fun x y hx _ => le_max_of_le_left hx
  · exact fun _ _ _ _ => trivial
  · exact fun x hx => (List.eq_of_mem_replicate hx).ge

/-- The merit that a candidate was rated with. -/
def Candidate.merit (c : Candidate Rat) : Merit := ⟨c.gain, c.time, c.area⟩

/-- Among credits of one and zero, one is the largest if it is there. -/
theorem foldl_max_ite {β : Type} (p : β → Bool) (bs : List β) :
    (bs.map fun b => if p b then (1 : Rat) else 0).foldl max 0 = if bs.any p then 1 else 0 := by
  have hone : ∀ bs : List β, (bs.map fun b => if p b then (1 : Rat) else 0).foldl max 1 = 1 := by
    intro bs
    induction bs with
    | nil => rfl
    | cons b bs ih =>
      rw [List.map_cons, List.foldl_cons, max_eq_left (by split <;> norm_num)]
      exact ih
  induction bs with
  | nil => rfl
  | cons b bs ih =>
    rw [List.map_cons, List.foldl_cons, List.any_cons]
    cases hb : p b with
    | true => simpa using hone bs
    | false => simpa using ih

/-- The sum of credits of one and zero counts the ones. -/
theorem sum_map_ite {β : Type} (p : β → Bool) (bs : List β) :
    (bs.map fun b => if p b then (1 : Rat) else 0).sum = bs.countP p := by
  induction bs with
  | nil => rfl
  | cons b bs ih =>
    rw [List.map_cons, List.sum_cons, ih, List.countP_cons]
    push_cast
    exact add_comm _ _

/-- The rating of solvers for a problem without objective. -/
theorem merit_solving (neighbors : List (Entry Rat)) (timeout : Rat) (solvers : List String) :
    (rate neighbors.length false (solvers.map (solvedRecord neighbors timeout))).merit =
      Merit.solving neighbors timeout solvers := by
  simp only [Candidate.merit, rate, Merit.solving, Merit.totalTime, Quantity.sum_rat,
    List.map_map, gain_eq (credits_solvedRecord neighbors timeout), Merit.mk.injEq]
  refine ⟨?_, congrArg List.sum (List.map_congr_left fun solver _ => ?_), rfl⟩
  · rw [← sum_map_ite]
    refine congrArg List.sum (List.map_congr_left fun entry _ => ?_)
    have hbest :=
      foldl_max_ite (fun solver => decide (entry.timeOf timeout solver < timeout)) solvers
    simp only [decide_eq_true_eq] at hbest
    exact hbest
  · exact time_solvedRecord neighbors timeout solver

/-- The rating of solvers for a problem with an objective. -/
theorem merit_scoring (neighbors : List (Entry Rat)) (timeout : Rat) (solvers : List String) :
    (rate neighbors.length true (solvers.map (scoredRecord neighbors timeout))).merit =
      Merit.scoring neighbors timeout solvers := by
  simp only [Candidate.merit, rate, Merit.scoring, Merit.totalTime, Quantity.sum_rat,
    List.map_map, gain_eq (credits_scoredRecord neighbors timeout), Merit.mk.injEq, if_true]
  refine ⟨rfl, congrArg List.sum (List.map_congr_left fun solver _ => ?_),
    congrArg List.sum (List.map_congr_left fun solver _ => ?_)⟩
  · exact time_scoredRecord neighbors timeout solver
  · exact area_scoredRecord neighbors timeout solver

/-! ## The first of the best -/

/-- A candidate is better than the one before if its merit is. -/
theorem improvesOn_some {c b : Candidate Rat} :
    c.improvesOn (some b) = true ↔ c.merit.Beats b.merit := by
  simp only [Candidate.improvesOn, Bool.or_eq_true, Bool.and_eq_true, beq_iff_eq,
    Quantity.lt_rat, Merit.Beats, Candidate.merit]
  tauto

/-- The first candidate is better than none. -/
theorem improvesOn_none {c : Candidate Rat} (h : 0 ≤ c.gain) : c.improvesOn none = true := by
  simp only [Candidate.improvesOn, Bool.or_eq_true, Bool.and_eq_true, beq_iff_eq,
    Quantity.lt_rat, Quantity.isBounded_rat]
  rcases h.lt_or_eq with hlt | heq
  · exact Or.inl (Or.inl hlt)
  · exact Or.inl (Or.inr ⟨heq.symm, trivial⟩)

/-- The search over candidates finds the first of those with the best merit. -/
theorem best_map {ι : Type} {f : ι → Candidate Rat} (h : ∀ i, 0 ≤ (f i).gain) (is : List ι) :
    best (is.map f) = (is.argmin fun i => (f i).merit.key).map f := by
  rw [best, List.foldl_map, List.argmin, ← List.foldl_hom (Option.map f)]
  · rfl
  -- One step of either search compares the next place with the best one so far.
  intro o i
  cases o with
  | none => exact if_pos (improvesOn_none (h i))
  | some b =>
    simp only [Option.map_some, improvesOn_some, ← Merit.key_lt_key, List.argAux]
    split <;> rfl

/-- The search finds something among candidates of which there is one. -/
theorem exists_mem_argmin {ι : Type} {f : ι → Candidate Rat} (h : ∀ i, 0 ≤ (f i).gain)
    {is : List ι} (hne : is ≠ []) :
    ∃ i ∈ is.argmin fun i => (f i).merit.key, best (is.map f) = some (f i) := by
  have hsome : (is.argmin fun i => (f i).merit.key) ≠ none := mt List.argmin_eq_none.mp hne
  obtain ⟨i, hi⟩ := Option.ne_none_iff_exists'.mp hsome
  exact ⟨i, hi, by rw [best_map h, hi, Option.map_some]⟩

/-- The places `ps` are the first ones with the best merit: no other set of places of the sizes
asked for beats it, and those with the same merit come later in the order of their sizes and, for
one size, in lexicographic order. -/
structure FirstBest {m : Nat} (least : Nat) (merit : List (Fin m) → Merit) (ps : List (Fin m)) :
    Prop where
  increasing : ps.Pairwise (· < ·)
  size : least ≤ ps.length
  best : ∀ other : List (Fin m), other.Pairwise (· < ·) → least ≤ other.length →
    ¬ (merit other).Beats (merit ps)
  first : ∀ other : List (Fin m), other.Pairwise (· < ·) → least ≤ other.length →
    merit other = merit ps → other ≠ ps → ps.Shortlex (· < ·) other

/-- What is found by a search for the least stands in front of all that is as good. -/
theorem rel_of_mem_argmin {ι κ : Type} [DecidableEq ι] [LinearOrder κ] {r : ι → ι → Prop}
    {f : ι → κ} {is : List ι} {i j : ι} (hr : is.Pairwise r) (hi : i ∈ is.argmin f) (hj : j ∈ is)
    (hle : f j ≤ f i) (hne : j ≠ i) : r i j := by
  have hmem := List.argmin_mem hi
  have hidx : is.idxOf i ≠ is.idxOf j := fun heq => hne ((List.idxOf_inj hmem).mp heq).symm
  have hlt := lt_of_le_of_ne (List.index_of_argmin hi hj hle) hidx
  have hordered := List.pairwise_iff_getElem.mp hr _ _ (List.idxOf_lt_length_of_mem hmem)
    (List.idxOf_lt_length_of_mem hj) hlt
  rwa [List.getElem_idxOf, List.getElem_idxOf] at hordered

open Combination in
/-- The first place set with the least key is the first of the best. -/
theorem firstBest_of_argmin {least m : Nat} {merit : List (Fin m) → Merit} {ps : List (Fin m)}
    (h : ps ∈ (placeSets least m).argmin fun ps => (merit ps).key) : FirstBest least merit ps := by
  obtain ⟨hps, hsize⟩ := mem_placeSets.mp (List.argmin_mem h)
  refine ⟨hps, hsize, fun other hother hleast hbeats => ?_, fun other hother hleast heq hne => ?_⟩
  · have hle := List.le_of_mem_argmin (mem_placeSets.mpr ⟨hother, hleast⟩) h
    exact hle.not_gt (Merit.key_lt_key.mpr hbeats)
  · exact rel_of_mem_argmin (pairwise_placeSets least m) h (mem_placeSets.mpr ⟨hother, hleast⟩)
      (congrArg Merit.key heq).le hne

/-- The least size of a sub-portfolio. -/
def leastSize (q : SelectionQuery Rat) : Nat := max 1 (min q.minSize q.portfolio.length)

/-- The solvers at places of the portfolio. -/
def solversAt (q : SelectionQuery Rat) (ps : List (Fin q.portfolio.length)) : List String :=
  ps.map q.portfolio.get

open Combination in
/-- If a word can count the subsets of every size, the sub-portfolios of the sizes asked for are
those at all sets of places, in the order of these. -/
theorem subPortfolios_eq {q : SelectionQuery Rat} (record : String → TrackRecord Rat)
    (hcount : ∀ i, q.portfolio.length.choose i ≤ maxCount) :
    subPortfolios q.minSize (q.portfolio.map record) =
      (placeSets (leastSize q) q.portfolio.length).map fun ps => (solversAt q ps).map record := by
  have hplaces : q.portfolio.map record =
      (List.finRange q.portfolio.length).map fun p => record (q.portfolio.get p) := by
    conv_lhs => rw [← List.map_get_finRange q.portfolio, List.map_map]
    rfl
  have hsubsets (k : Nat) : subsets k (q.portfolio.map record) =
      ((List.finRange q.portfolio.length).sublistsLen k).reverse.map
        fun ps => (solversAt q ps).map record := by
    rw [hplaces, subsets_map, subsets_of_choose_le (by rw [List.length_finRange]; exact hcount k)]
    simp only [solversAt, List.map_map]
    rfl
  simp only [subPortfolios, List.length_map, hsubsets, placeSets, List.map_flatMap]
  rfl

/-- There is a set of all places. -/
theorem placeSets_ne_nil {least m : Nat} (h : least ≤ m) : Combination.placeSets least m ≠ [] := by
  refine List.ne_nil_of_mem (a := List.finRange m) (Combination.mem_placeSets.mpr ⟨?_, ?_⟩)
  · exact List.pairwise_lt_finRange m
  · rwa [List.length_finRange]

/-- If a word can count the subsets of every size, the selection finds the first of the best. -/
theorem exists_firstBest {q : SelectionQuery Rat} {record : String → TrackRecord Rat} {size : Nat}
    {useArea : Bool} {merit : List String → Merit} (hportfolio : q.portfolio ≠ [])
    (hcount : ∀ i, q.portfolio.length.choose i ≤ Combination.maxCount)
    (hmerit : ∀ solvers, (rate size useArea (solvers.map record)).merit = merit solvers) :
    ∃ ps, FirstBest (leastSize q) (fun ps => merit (solversAt q ps)) ps ∧
      bestSubPortfolio size q.minSize useArea (q.portfolio.map record) =
        some (rate size useArea ((solversAt q ps).map record)) := by
  have hall : bestSubPortfolio size q.minSize useArea (q.portfolio.map record) =
      best ((Combination.placeSets (leastSize q) q.portfolio.length).map
        fun ps => rate size useArea ((solversAt q ps).map record)) := by
    rw [bestSubPortfolio, subPortfolios_eq record hcount, List.map_map]
    rfl
  have hleast : leastSize q ≤ q.portfolio.length := by
    have := List.length_pos_iff.mpr hportfolio
    unfold leastSize
    omega
  obtain ⟨ps, hps, hbest⟩ := exists_mem_argmin
    (f := fun ps => rate size useArea ((solversAt q ps).map record))
    (fun ps => gain_nonneg size _) (placeSets_ne_nil hleast)
  simp only [hmerit] at hps
  exact ⟨ps, firstBest_of_argmin hps, hall.trans hbest⟩

/-- A selection with neighbours and a portfolio allocates the timeout to the members of the best
candidate. -/
theorem ofRecords_eq {size : Nat} {q : SelectionQuery Rat} {useArea : Bool}
    {records : List (TrackRecord Rat)} {c : Candidate Rat} (hsize : size ≠ 0)
    (hrecords : records ≠ [])
    (hbest : bestSubPortfolio size q.minSize useArea records = some c) :
    ofRecords size q useArea records =
      ⟨c.members.map (·.solver), allocate size q records c.members c.gain⟩ := by
  rw [ofRecords, if_neg (by simp [hsize, hrecords]), hbest]

/-- On every neighbourhood the selection takes the first of the best sub-portfolios of the sizes
asked for, as long as a 64-bit word can count the sub-portfolios of every size. -/
theorem subPortfolio_firstBest {neighbors : List (Entry Rat)} {q : SelectionQuery Rat}
    (hneighbors : neighbors ≠ []) (hportfolio : q.portfolio ≠ [])
    (hcount : ∀ i, q.portfolio.length.choose i < 2 ^ 64) :
    (∃ ps, FirstBest (leastSize q) (fun ps => .solving neighbors q.timeout (solversAt q ps)) ps ∧
      (forSatisfaction neighbors q).subPortfolio = solversAt q ps) ∧
    ∃ ps, FirstBest (leastSize q) (fun ps => .scoring neighbors q.timeout (solversAt q ps)) ps ∧
      (forOptimization neighbors q).subPortfolio = solversAt q ps := by
  have hsize := mt List.length_eq_zero_iff.mp hneighbors
  have hword (i : Nat) : q.portfolio.length.choose i ≤ Combination.maxCount :=
    Nat.le_sub_one_of_lt (hcount i)
  constructor
  · obtain ⟨ps, hfirst, hbest⟩ :=
      exists_firstBest hportfolio hword (merit_solving neighbors q.timeout)
    refine ⟨ps, hfirst, ?_⟩
    rw [forSatisfaction, ofRecords_eq hsize (mt List.map_eq_nil_iff.mp hportfolio) hbest]
    simp [rate, solvedRecord, Function.comp_def]
  · obtain ⟨ps, hfirst, hbest⟩ :=
      exists_firstBest hportfolio hword (merit_scoring neighbors q.timeout)
    refine ⟨ps, hfirst, ?_⟩
    rw [forOptimization, ofRecords_eq hsize (mt List.map_eq_nil_iff.mp hportfolio) hbest]
    simp [rate, scoredRecord, Function.comp_def]

/-! ## Three solvers -/

/-- Three solvers, of which one or more are to be selected. -/
def trioQuery : SelectionQuery Rat := ⟨["a", "b", "c"], "c", 10, 0⟩

/-- A run that took some seconds, with its score if there was an objective. -/
def trioOutcome (time : Rat) (score : Option Rat) : Outcome Rat :=
  ⟨time, none, none, score, none, none⟩

/-- On the first instance the first solver reaches the timeout, and on the second one it was not
run; there the two others are equally good. -/
def trioNeighbors : List (Entry Rat) :=
  [⟨"i1", [], [("a", trioOutcome 10 none), ("b", trioOutcome 3 (some 1)),
      ("c", trioOutcome 4 (some (1 / 2)))]⟩,
    ⟨"i2", [], [("b", trioOutcome 5 (some (1 / 2))), ("c", trioOutcome 4 (some 1))]⟩]

/-- Without an objective the second solver alone is selected: it solves both instances, in the same
time as the third one. With an objective the second and the third one are. -/
theorem trio_firstBest : trioNeighbors ≠ [] ∧ trioQuery.portfolio ≠ [] ∧
    (∀ i, trioQuery.portfolio.length.choose i < 2 ^ 64) ∧
    ((∃ ps, FirstBest (leastSize trioQuery)
        (fun ps => .solving trioNeighbors trioQuery.timeout (solversAt trioQuery ps)) ps ∧
        solversAt trioQuery ps = ["b"]) ∧
      ∃ ps, FirstBest (leastSize trioQuery)
        (fun ps => .scoring trioNeighbors trioQuery.timeout (solversAt trioQuery ps)) ps ∧
        solversAt trioQuery ps = ["b", "c"]) := by
  have hcount (i : Nat) : trioQuery.portfolio.length.choose i < 2 ^ 64 :=
    (Nat.choose_le_two_pow 3 i).trans_lt (by norm_num)
  have hneighbors : trioNeighbors ≠ [] := List.cons_ne_nil _ _
  have hportfolio : trioQuery.portfolio ≠ [] := List.cons_ne_nil _ _
  obtain ⟨⟨ps, hfirst, hps⟩, qs, hfirst', hqs⟩ :=
    subPortfolio_firstBest hneighbors hportfolio hcount
  have hsolving : (forSatisfaction trioNeighbors trioQuery).subPortfolio = ["b"] := by
    decide +kernel
  have hscoring : (forOptimization trioNeighbors trioQuery).subPortfolio = ["b", "c"] := by
    decide +kernel
  exact ⟨hneighbors, hportfolio, hcount, ⟨ps, hfirst, hps.symm.trans hsolving⟩,
    qs, hfirst', hqs.symm.trans hscoring⟩

end Selection

end SolverPortfolio

import Mathlib.Algebra.BigOperators.Ring.List
import Mathlib.Algebra.Order.Field.Basic
import Mathlib.Tactic.Linarith
import SolverPortfolio.Proofs.Merit

/-
# The allocation of the timeout

The members of the best sub-portfolio share the timeout in proportion to their credits,
and the backup solver gets what is left. Credits that are not negative add up to no less
than the gain, so that there is at least one share for every neighbour; and if no credit
is above one, then the shares handed out are no more than there are.

Main definitions: `Selection.isKept`, `Selection.keptCredit`, `Selection.Apportions`,
`Selection.Conserves`, `Selection.divisor?`.
Main statements: `Selection.size_le_shares`, `Selection.totalSeconds_allocate_le_iff`,
`Selection.Tracks.exists_apportions`, `Selection.schedule_conserves`.
-/

namespace SolverPortfolio

/-- All seconds of a schedule of exact times. -/
theorem Schedule.totalSeconds_rat (schedule : Schedule Rat) :
    totalSeconds schedule = (schedule.map (·.seconds)).sum := Quantity.sum_rat _

namespace Selection

/-! ## The number of shares -/

section

variable {members : List (TrackRecord Rat)}

/-- The credit over the neighbourhood is the sum of the credits. -/
theorem totalCredit_rat (r : TrackRecord Rat) : totalCredit r = r.credits.sum :=
  Quantity.sum_rat _

/-- Credits that are not negative add up to no less than zero. -/
theorem totalCredit_nonneg {r : TrackRecord Rat} (h : ∀ x ∈ r.credits, 0 ≤ x) :
    0 ≤ totalCredit r := by
  rw [totalCredit_rat]
  exact List.sum_nonneg h

/-- The number of shares in exact numbers. -/
theorem shares_rat (size : Nat) (gain : Rat) :
    shares size members gain = (members.map totalCredit).sum + (size - gain) := by
  rw [shares, Quantity.sum_rat, Quantity.ofNat_rat]

/-- The better ones of two credits on every neighbour are at most both together. -/
theorem sum_zipWith_larger_le {best credits : List Rat} (hbest : ∀ x ∈ best, 0 ≤ x)
    (hcredits : ∀ x ∈ credits, 0 ≤ x) :
    (best.zipWith Quantity.larger credits).sum ≤ best.sum + credits.sum := by
  induction best generalizing credits with
  | nil => simpa using List.sum_nonneg hcredits
  | cons x best ih =>
    cases credits with
    | nil => simpa using List.sum_nonneg hbest
    | cons y credits =>
      rw [List.forall_mem_cons] at hbest hcredits
      rw [List.zipWith_cons_cons, List.sum_cons, List.sum_cons, List.sum_cons,
        Quantity.larger_rat, add_add_add_comm]
      exact add_le_add (max_le_add_of_nonneg hbest.1 hcredits.1) (ih hbest.2 hcredits.2)

/-- The best credits are at most those from before and all that is added. -/
theorem sum_foldl_larger_le {best : List Rat} (hbest : ∀ x ∈ best, 0 ≤ x)
    (h : ∀ r ∈ members, ∀ x ∈ r.credits, 0 ≤ x) :
    (members.foldl (fun best r => best.zipWith Quantity.larger r.credits) best).sum ≤
      best.sum + (members.map totalCredit).sum := by
  -- The induction is on the members, who are compared with what those before them left as the best.
  induction members generalizing best with
  | nil => simp
  | cons r members ih =>
    rw [List.forall_mem_cons] at h
    have hone : ∀ r' ∈ [r], ∀ x ∈ r'.credits, 0 ≤ x := List.forall_mem_singleton.mpr h.1
    have hlarger : ∀ x ∈ best.zipWith Quantity.larger r.credits, 0 ≤ x :=
      forall_mem_foldl_larger (fun x y hx _ => le_max_of_le_left hx) hone hbest
    have hrest := ih hlarger h.2
    have hfirst := sum_zipWith_larger_le hbest h.1
    rw [List.foldl_cons, List.map_cons, List.sum_cons, totalCredit_rat]
    linarith

/-- The gain is at most the credit of all members. -/
theorem gain_le_credits (size : Nat) (h : ∀ r ∈ members, ∀ x ∈ r.credits, 0 ≤ x) :
    gain size members ≤ (members.map totalCredit).sum := by
  have hzero : ∀ x ∈ List.replicate size (0 : Rat), 0 ≤ x := fun x hx =>
    (List.eq_of_mem_replicate hx).ge
  simpa [gain] using sum_foldl_larger_le hzero h

/-- There are no more best credits than there were. -/
theorem length_foldl_larger_le (members : List (TrackRecord Rat)) (best : List Rat) :
    (members.foldl (fun best r => best.zipWith Quantity.larger r.credits) best).length ≤
      best.length := by
  induction members generalizing best with
  | nil => exact Nat.le_refl _
  | cons r members ih =>
    refine (ih _).trans ?_
    rw [List.length_zipWith]
    exact Nat.min_le_left _ _

/-- The gain is at most the number of neighbours. -/
theorem gain_le_size (size : Nat) (h : ∀ r ∈ members, ∀ x ∈ r.credits, x ≤ 1) :
    gain size members ≤ size := by
  have hzero : ∀ x ∈ List.replicate size (0 : Rat), x ≤ 1 := fun x hx =>
    (List.eq_of_mem_replicate hx).trans_le zero_le_one
  have hone := forall_mem_foldl_larger (fun x y => max_le) h hzero
  have hlength := length_foldl_larger_le members (List.replicate size 0)
  rw [List.length_replicate] at hlength
  rw [gain, Quantity.sum_rat]
  refine (List.sum_le_card_nsmul _ 1 hone).trans ?_
  rw [nsmul_one]
  exact Nat.cast_le.mpr hlength

/-- There is a share for every neighbour. -/
theorem size_le_shares (size : Nat) (h : ∀ r ∈ members, ∀ x ∈ r.credits, 0 ≤ x) :
    (size : Rat) ≤ shares size members (gain size members) := by
  have := gain_le_credits size h
  rw [shares_rat]
  linarith

end

/-! ## The slots of the members -/

section

variable {timeout n : Rat} {members : List (TrackRecord Rat)}

/-- Halves are not rounded to zero. -/
theorem roundsToZero_rat {x : Rat} : roundsToZero x = true ↔ -(1 / 2) < x ∧ x < 1 / 2 := by
  simp [roundsToZero]

/-- Does a member get a slot if there are `n` shares of the timeout? -/
def isKept (timeout n : Rat) (r : TrackRecord Rat) : Bool :=
  !(totalCredit r == 0 || roundsToZero (timeout / n * totalCredit r))

/-- A member gets a slot if its share comes to half a second or more. -/
theorem isKept_iff (hrate : 0 ≤ timeout / n) {r : TrackRecord Rat} (hcredit : 0 ≤ totalCredit r) :
    isKept timeout n r = true ↔ 1 / 2 ≤ timeout / n * totalCredit r := by
  have hseconds := mul_nonneg hrate hcredit
  rw [isKept, Bool.not_eq_true', Bool.or_eq_false_iff, Bool.eq_false_iff, Bool.eq_false_iff,
    ne_eq, ne_eq, beq_iff_eq, roundsToZero_rat, not_and, not_lt]
  constructor
  · rintro ⟨-, hround⟩
    exact hround (by linarith)
  · intro hhalf
    refine ⟨fun hzero => ?_, fun _ => hhalf⟩
    rw [hzero, mul_zero] at hhalf
    linarith

/-- The credit of the members that get a slot. -/
def keptCredit (timeout n : Rat) (members : List (TrackRecord Rat)) : Rat :=
  ((members.filter (isKept timeout n)).map totalCredit).sum

/-- The members kept have no more credit than all members. -/
theorem keptCredit_le (hcredits : ∀ r ∈ members, ∀ x ∈ r.credits, 0 ≤ x) :
    keptCredit timeout n members ≤ (members.map totalCredit).sum := by
  refine (List.filter_sublist.map totalCredit).sum_le_sum fun x hx => ?_
  obtain ⟨r, hr, rfl⟩ := List.mem_map.mp hx
  exact totalCredit_nonneg (hcredits r hr)

/-- The slots are those of the members kept. -/
theorem memberSlots_eq : memberSlots timeout n members =
    (members.filter (isKept timeout n)).map fun r => ⟨r.solver, timeout / n * totalCredit r⟩ := by
  rw [memberSlots, ← List.filterMap_eq_map, List.filterMap_filter]
  refine List.filterMap_congr fun r _ => ?_
  have hkept : isKept timeout n r = true ↔
      ¬ (totalCredit r == 0 || roundsToZero (timeout / n * totalCredit r)) = true := by
    rw [isKept, Bool.not_eq_true', Bool.eq_false_iff]
  dsimp only
  split
  · next h => rw [if_neg fun hk => hkept.mp hk h]
  · next h => rw [if_pos (hkept.mpr h), Function.comp_apply]

/-- Members have distinct slots. -/
theorem solvers_memberSlots_sublist : ((memberSlots timeout n members).map (·.solver)).Sublist
    (members.map (·.solver)) := by
  rw [memberSlots_eq, List.map_map]
  exact List.filter_sublist.map _

/-- Slots of members are no shorter than half a second. -/
theorem half_le_of_mem_memberSlots (hrate : 0 ≤ timeout / n)
    (hcredits : ∀ r ∈ members, ∀ x ∈ r.credits, 0 ≤ x) {slot : Slot Rat}
    (h : slot ∈ memberSlots timeout n members) : 1 / 2 ≤ slot.seconds := by
  rw [memberSlots_eq] at h
  obtain ⟨r, hr, rfl⟩ := List.mem_map.mp h
  obtain ⟨hmem, hkept⟩ := List.mem_filter.mp hr
  exact (isKept_iff hrate (totalCredit_nonneg (hcredits r hmem))).mp hkept

/-- The members kept get their credits' share of the timeout. -/
theorem totalSeconds_memberSlots : Schedule.totalSeconds (memberSlots timeout n members) =
    timeout / n * keptCredit timeout n members := by
  rw [Schedule.totalSeconds_rat, memberSlots_eq, List.map_map, keptCredit, ← List.sum_map_mul_left]
  rfl

/-- The members stay within the timeout if the credit of those kept is no more than there are
shares. -/
theorem totalSeconds_memberSlots_le_iff (htimeout : 0 < timeout) (hn : 0 < n) :
    Schedule.totalSeconds (memberSlots timeout n members) ≤ timeout ↔
      keptCredit timeout n members ≤ n := by
  rw [totalSeconds_memberSlots, div_mul_eq_mul_div, div_le_iff₀ hn, mul_le_mul_iff_right₀ htimeout]

end

/-! ## What is left for the backup solver -/

section

variable {solver : String} {seconds : Rat} {schedule : Schedule Rat}

/-- All seconds are added. -/
theorem totalSeconds_addSeconds : Schedule.totalSeconds (addSeconds solver seconds schedule) =
    Schedule.totalSeconds schedule + seconds := by
  simp only [Schedule.totalSeconds_rat]
  induction schedule with
  | nil => simp [addSeconds]
  | cons slot rest ih =>
    unfold addSeconds
    split
    · simp only [List.map_cons, List.sum_cons]
      exact add_right_comm _ _ _
    · simp only [List.map_cons, List.sum_cons, ih, add_assoc]

/-- A slot is an old one, or the seconds have been added to it. -/
theorem mem_addSeconds {slot : Slot Rat} (h : slot ∈ addSeconds solver seconds schedule) :
    slot ∈ schedule ∨ slot.solver = solver ∧
      (slot.seconds = seconds ∨ ∃ old ∈ schedule, slot.seconds = old.seconds + seconds) := by
  induction schedule with
  | nil => exact .inr (by simp_all [addSeconds])
  | cons first rest ih =>
    unfold addSeconds at h
    split at h
    · next hfirst =>
      rcases List.mem_cons.mp h with rfl | hrest
      · exact .inr ⟨hfirst, .inr ⟨first, List.mem_cons_self, rfl⟩⟩
      · exact .inl (List.mem_cons_of_mem _ hrest)
    · rcases List.mem_cons.mp h with rfl | hrest
      · exact .inl List.mem_cons_self
      · rcases ih hrest with hold | ⟨hsolver, hnew | ⟨old, hold, hadded⟩⟩
        · exact .inl (List.mem_cons_of_mem _ hold)
        · exact .inr ⟨hsolver, .inl hnew⟩
        · exact .inr ⟨hsolver, .inr ⟨old, List.mem_cons_of_mem _ hold, hadded⟩⟩

/-- The backup solver gets what is left of the timeout, unless that is hardly anything. -/
theorem giveLeftover_eq (solver : String) (timeout : Rat) (schedule : Schedule Rat) :
    giveLeftover solver timeout schedule =
      if 1 / 1000000 < timeout - Schedule.totalSeconds schedule then
        addSeconds solver (timeout - Schedule.totalSeconds schedule) schedule
      else schedule := by
  simp only [giveLeftover, Quantity.lt_rat, timeTolerance, Quantity.ofRatio_rat, Nat.cast_one,
    Nat.cast_ofNat]

/-- What is left brings the schedule up to the timeout. -/
theorem totalSeconds_giveLeftover (timeout : Rat) :
    Schedule.totalSeconds (giveLeftover solver timeout schedule) =
      if 1 / 1000000 < timeout - Schedule.totalSeconds schedule then timeout
      else Schedule.totalSeconds schedule := by
  rw [giveLeftover_eq]
  split
  · rw [totalSeconds_addSeconds, add_sub_cancel]
  · rfl

/-- Nothing is handed out above the timeout that was not handed out before. -/
theorem totalSeconds_giveLeftover_le_iff {timeout : Rat} :
    Schedule.totalSeconds (giveLeftover solver timeout schedule) ≤ timeout ↔
      Schedule.totalSeconds schedule ≤ timeout := by
  rw [totalSeconds_giveLeftover]
  split
  · next h => exact iff_of_true le_rfl (by linarith)
  · exact Iff.rfl

/-- Hardly anything of the timeout is left. -/
theorem le_totalSeconds_giveLeftover (timeout : Rat) : timeout - 1 / 1000000 ≤
    Schedule.totalSeconds (giveLeftover solver timeout schedule) := by
  rw [totalSeconds_giveLeftover]
  split <;> linarith

/-- Among slots with time, one is an old slot or has time and belongs to the backup solver. -/
theorem mem_giveLeftover {timeout : Rat} {slot : Slot Rat}
    (hpos : ∀ old ∈ schedule, 0 < old.seconds)
    (h : slot ∈ giveLeftover solver timeout schedule) :
    slot ∈ schedule ∨ slot.solver = solver ∧ 0 < slot.seconds := by
  rw [giveLeftover_eq] at h
  split at h
  · next hleft =>
    have hleft : 0 < timeout - Schedule.totalSeconds schedule := by linarith
    rcases mem_addSeconds h with hold | ⟨hsolver, hnew | ⟨old, hold, hadded⟩⟩
    · exact .inl hold
    · exact .inr ⟨hsolver, hnew ▸ hleft⟩
    · exact .inr ⟨hsolver, hadded ▸ add_pos (hpos old hold) hleft⟩
  · exact .inl h

/-- Distinct slots stay distinct. -/
theorem nodup_giveLeftover {timeout : Rat} (h : (schedule.map (·.solver)).Nodup) :
    ((giveLeftover solver timeout schedule).map (·.solver)).Nodup := by
  rw [giveLeftover_eq]
  split
  · rw [solvers_addSeconds]
    split
    · exact h
    · next hnew => exact List.nodup_append.mpr ⟨h, List.nodup_singleton _, by simp_all⟩
  · exact h

end

/-! ## The order of the slots -/

/-- A time stands before another one that is no lower, and before infinity. -/
theorem extendedSortsBefore_rat {x y : Option Rat} :
    Quantity.extendedSortsBefore x y = true ↔ ∀ b ∈ y, ∃ a ∈ x, a ≤ b := by
  cases x <;> cases y <;> simp [Quantity.extendedSortsBefore, Quantity.sortsBefore,
    Quantity.infinity?]

/-- Slots are sorted by the times of their solvers. -/
theorem pairwise_sortByTime (records : List (TrackRecord Rat)) (schedule : Schedule Rat) :
    (sortByTime records schedule).Pairwise fun a b =>
      ∀ t ∈ neighborhoodTime? records b.solver,
        ∃ s ∈ neighborhoodTime? records a.solver, s ≤ t := by
  simp only [← extendedSortsBefore_rat]
  refine List.pairwise_mergeSort (fun a b c hab hbc => ?_) (fun a b => ?_) schedule
  · rw [extendedSortsBefore_rat] at hab hbc ⊢
    intro t ht
    obtain ⟨s, hs, hst⟩ := hbc t ht
    obtain ⟨r, hr, hrs⟩ := hab s hs
    exact ⟨r, hr, hrs.trans hst⟩
  · rw [Bool.or_eq_true, extendedSortsBefore_rat, extendedSortsBefore_rat]
    cases neighborhoodTime? records a.solver with
    | none => exact .inr fun t ht => by cases ht
    | some s =>
      cases neighborhoodTime? records b.solver with
      | none => exact .inl fun t ht => by cases ht
      | some t => simpa using le_total s t

/-- Only the solvers of the portfolio have a time. -/
theorem neighborhoodTime?_map {record : String → TrackRecord Rat}
    (h : ∀ solver, (record solver).solver = solver) (portfolio : List String) (solver : String) :
    neighborhoodTime? (portfolio.map record) solver =
      if solver ∈ portfolio then some (record solver).time else none := by
  unfold neighborhoodTime?
  induction portfolio with
  | nil => rfl
  | cons first rest ih =>
    rw [List.map_cons, List.find?_cons, h]
    by_cases hfirst : first = solver
    · simp [hfirst]
    · rw [beq_false_of_ne hfirst]
      simpa [Ne.symm hfirst] using ih

/-! ## The schedule of a selection -/

/-- A whole portfolio is one of its sub-portfolios. -/
theorem mem_subPortfolios_self {records : List (TrackRecord Rat)} (h : records ≠ [])
    (minSize : Nat) : records ∈ subPortfolios minSize records := by
  have hlength := List.length_pos_iff.mpr h
  refine List.mem_flatMap.mpr ⟨records.length, ?_, ?_⟩
  · rw [List.mem_range'_1]
    omega
  · rw [Combination.subsets_of_choose_le (by rw [Nat.choose_self]; decide),
      List.sublistsLen_length]
    exact List.mem_singleton_self _

/-- However many sub-portfolios there are, one of them is the best. -/
theorem exists_best {records : List (TrackRecord Rat)} (h : records ≠ []) (size minSize : Nat)
    (useArea : Bool) : ∃ members, members.Sublist records ∧
      bestSubPortfolio size minSize useArea records = some (rate size useArea members) := by
  obtain ⟨members, hmembers, hbest⟩ := exists_mem_argmin (f := rate size useArea)
    (fun members => gain_nonneg size members)
    (List.ne_nil_of_mem (mem_subPortfolios_self h minSize))
  obtain ⟨k, -, hsubset⟩ := List.mem_flatMap.mp (List.argmin_mem hmembers)
  exact ⟨members, (Combination.sublist_of_mem_subsets hsubset).1, hbest⟩

/-- A selection that hands out the timeout on a neighbourhood: every slot has time, no solver has
two, the slots are those of members and of the backup solver, only the latter's may be short, hardly
any time is left, and who took less time on the neighbourhood comes first, before a backup solver
from outside the portfolio. -/
structure Apportions (neighbors : List (Entry Rat)) (q : SelectionQuery Rat) (s : Selection Rat) :
    Prop where
  positive : ∀ slot ∈ s.schedule, 0 < slot.seconds
  distinct : (s.schedule.map (·.solver)).Nodup
  chosen : ∀ slot ∈ s.schedule, slot.solver ∈ s.subPortfolio ∨ slot.solver = q.backup
  substantial : ∀ slot ∈ s.schedule, slot.solver ≠ q.backup → 1 / 2 ≤ slot.seconds
  used : q.timeout - 1 / 1000000 ≤ Schedule.totalSeconds s.schedule
  sorted : s.schedule.Pairwise fun a b => b.solver ∈ q.portfolio → a.solver ∈ q.portfolio ∧
    Merit.timeOn neighbors q.timeout a.solver ≤ Merit.timeOn neighbors q.timeout b.solver
  outsiderLast : ∀ slot ∈ s.schedule.dropLast, slot.solver ∈ q.portfolio

/-- A selection that hands out the timeout and nothing above it. -/
structure Conserves (neighbors : List (Entry Rat)) (q : SelectionQuery Rat) (s : Selection Rat) :
    Prop extends Apportions neighbors q s where
  bounded : Schedule.totalSeconds s.schedule ≤ q.timeout

section

variable {size : Nat} {q : SelectionQuery Rat} {records members : List (TrackRecord Rat)}

/-- A slot is that of a member, or has time and belongs to the backup solver. -/
theorem mem_allocate (htimeout : 0 < q.timeout) (hsize : 0 < size)
    (hcredits : ∀ r ∈ members, ∀ x ∈ r.credits, 0 ≤ x) {slot : Slot Rat}
    (h : slot ∈ allocate size q records members (gain size members)) :
    slot.solver ∈ members.map (·.solver) ∧ 1 / 2 ≤ slot.seconds ∨
      slot.solver = q.backup ∧ 0 < slot.seconds := by
  have hn : (0 : Rat) < shares size members (gain size members) :=
    (Nat.cast_pos.mpr hsize).trans_le (size_le_shares size hcredits)
  have hhalf {old : Slot Rat} (hold : old ∈ memberSlots q.timeout
      (shares size members (gain size members)) members) : 1 / 2 ≤ old.seconds :=
    half_le_of_mem_memberSlots (div_nonneg htimeout.le hn.le) hcredits hold
  have hslot := (sortByTime_perm _ _).mem_iff.mp h
  rcases mem_giveLeftover (fun old hold => one_half_pos.trans_le (hhalf hold)) hslot with
    hmember | hbackup
  · exact .inl ⟨solvers_memberSlots_sublist.subset (List.mem_map_of_mem hmember), hhalf hmember⟩
  · exact .inr hbackup

/-- The slots of distinct members are distinct. -/
theorem nodup_allocate (size : Nat) (q : SelectionQuery Rat) (records : List (TrackRecord Rat))
    (h : (members.map (·.solver)).Nodup) (gain : Rat) :
    ((allocate size q records members gain).map (·.solver)).Nodup := by
  refine ((sortByTime_perm _ _).map _).nodup_iff.mpr (nodup_giveLeftover ?_)
  exact h.sublist solvers_memberSlots_sublist

/-- Sorting does not change what is handed out. -/
theorem totalSeconds_allocate (gain : Rat) :
    Schedule.totalSeconds (allocate size q records members gain) =
      Schedule.totalSeconds (giveLeftover q.backup q.timeout
        (memberSlots q.timeout (shares size members gain) members)) := by
  rw [Schedule.totalSeconds_rat, Schedule.totalSeconds_rat]
  exact ((sortByTime_perm _ _).map _).sum_eq

/-- The schedule stays within the timeout if the credit of the members kept is no more than there
are shares. -/
theorem totalSeconds_allocate_le_iff (htimeout : 0 < q.timeout) {gain : Rat}
    (hn : 0 < shares size members gain) :
    Schedule.totalSeconds (allocate size q records members gain) ≤ q.timeout ↔
      keptCredit q.timeout (shares size members gain) members ≤ shares size members gain := by
  rw [totalSeconds_allocate, totalSeconds_giveLeftover_le_iff,
    totalSeconds_memberSlots_le_iff htimeout hn]

end

/-- The record of every solver is its own one, and has its time on the neighbourhood. -/
structure Tracks (neighbors : List (Entry Rat)) (timeout : Rat)
    (record : String → TrackRecord Rat) : Prop where
  solver : ∀ solver, (record solver).solver = solver
  time : ∀ solver, (record solver).time = Merit.timeOn neighbors timeout solver

/-- The records for problems without objective. -/
theorem tracks_solvedRecord (neighbors : List (Entry Rat)) (timeout : Rat) :
    Tracks neighbors timeout (solvedRecord neighbors timeout) :=
  ⟨fun _ => rfl, time_solvedRecord neighbors timeout⟩

/-- The records for problems with an objective. -/
theorem tracks_scoredRecord (neighbors : List (Entry Rat)) (timeout : Rat) :
    Tracks neighbors timeout (scoredRecord neighbors timeout) :=
  ⟨fun _ => rfl, time_scoredRecord neighbors timeout⟩

section

variable {neighbors : List (Entry Rat)} {q : SelectionQuery Rat} {record : String → TrackRecord Rat}
  {members : List (TrackRecord Rat)}

/-- What the records of all solvers of the portfolio are like, the members are. -/
theorem forall_mem_of_sublist {P : TrackRecord Rat → Prop}
    (hmembers : members.Sublist (q.portfolio.map record))
    (h : ∀ solver ∈ q.portfolio, P (record solver)) : ∀ r ∈ members, P r := by
  intro r hr
  obtain ⟨solver, hsolver, rfl⟩ := List.mem_map.mp (hmembers.subset hr)
  exact h solver hsolver

/-- Members of sub-portfolios are solvers of the portfolio. -/
theorem Tracks.sublist (h : Tracks neighbors q.timeout record)
    (hmembers : members.Sublist (q.portfolio.map record)) :
    (members.map (·.solver)).Sublist q.portfolio := by
  have hself : (q.portfolio.map record).map (·.solver) = q.portfolio := by
    rw [List.map_map]
    exact (List.map_congr_left fun solver _ => h.solver solver).trans (List.map_id _)
  have hsub := hmembers.map (·.solver)
  rwa [hself] at hsub

/-- The times that slots are sorted by are the times on the neighbourhood. -/
theorem Tracks.mem_neighborhoodTime? (h : Tracks neighbors q.timeout record) {solver : String}
    {t : Rat} : t ∈ neighborhoodTime? (q.portfolio.map record) solver ↔
      solver ∈ q.portfolio ∧ Merit.timeOn neighbors q.timeout solver = t := by
  rw [neighborhoodTime?_map h.solver, h.time]
  split <;> simp_all

/-- Who took less time on the neighbourhood comes first. -/
theorem Tracks.sorted_allocate (h : Tracks neighbors q.timeout record) (size : Nat)
    (members : List (TrackRecord Rat)) (gain : Rat) :
    (allocate size q (q.portfolio.map record) members gain).Pairwise fun a b =>
      b.solver ∈ q.portfolio → a.solver ∈ q.portfolio ∧
        Merit.timeOn neighbors q.timeout a.solver ≤ Merit.timeOn neighbors q.timeout b.solver := by
  refine (pairwise_sortByTime _ _).imp fun {a b} hab hb => ?_
  obtain ⟨s, hs, hle⟩ := hab _ (h.mem_neighborhoodTime?.mpr ⟨hb, rfl⟩)
  obtain ⟨ha, rfl⟩ := h.mem_neighborhoodTime?.mp hs
  exact ⟨ha, hle⟩

/-- In an order in which solvers of the portfolio stand before all others, only the last one of
distinct slots may be that of a backup solver from outside. -/
theorem outsider_last {backup : String} {schedule : Schedule Rat}
    (hsolvers : ∀ slot ∈ schedule, slot.solver ∈ q.portfolio ∨ slot.solver = backup)
    (hdistinct : (schedule.map (·.solver)).Nodup)
    (hsorted : schedule.Pairwise fun a b => b.solver ∈ q.portfolio → a.solver ∈ q.portfolio) :
    ∀ slot ∈ schedule.dropLast, slot.solver ∈ q.portfolio := by
  intro slot hslot
  have hne : schedule ≠ [] := fun hnil => by simp [hnil] at hslot
  have hsplit := List.dropLast_concat_getLast hne
  rw [← hsplit, List.map_append, List.nodup_append] at hdistinct
  rw [← hsplit, List.pairwise_append] at hsorted
  have hlast := List.mem_singleton_self (schedule.getLast hne)
  -- If the slot were the backup solver's, the last one would have to be so, too.
  rcases hsolvers slot ((List.dropLast_sublist schedule).subset hslot) with hin | hbackup
  · exact hin
  · rcases hsolvers _ (List.getLast_mem hne) with hin | hbackup'
    · exact hsorted.2.2 slot hslot _ hlast hin
    · exact absurd (hbackup.trans hbackup'.symm)
        (hdistinct.2.2 _ (List.mem_map_of_mem hslot) _ (List.mem_map_of_mem hlast))

/-- Members whose credits are not negative share the timeout. -/
theorem Tracks.apportions (h : Tracks neighbors q.timeout record) (htimeout : 0 < q.timeout)
    (hneighbors : neighbors ≠ []) (hdistinct : q.portfolio.Nodup)
    (hmembers : members.Sublist (q.portfolio.map record))
    (hcredits : ∀ r ∈ members, ∀ x ∈ r.credits, 0 ≤ x) :
    Apportions neighbors q ⟨members.map (·.solver), allocate neighbors.length q
      (q.portfolio.map record) members (gain neighbors.length members)⟩ := by
  have hmem {slot : Slot Rat} (hslot : slot ∈ allocate neighbors.length q
      (q.portfolio.map record) members (gain neighbors.length members)) :=
    mem_allocate htimeout (List.length_pos_iff.mpr hneighbors) hcredits hslot
  have hsublist := h.sublist hmembers
  have hnodup := nodup_allocate neighbors.length q (q.portfolio.map record)
    (hdistinct.sublist hsublist) (gain neighbors.length members)
  have hsorted := h.sorted_allocate neighbors.length members (gain neighbors.length members)
  refine ⟨fun slot hslot => ?_, hnodup, fun slot hslot => ?_, fun slot hslot hne => ?_, ?_,
    hsorted, ?_⟩
  · rcases hmem hslot with ⟨-, hhalf⟩ | ⟨-, hpos⟩
    · exact one_half_pos.trans_le hhalf
    · exact hpos
  · exact (hmem hslot).imp And.left And.left
  · rcases hmem hslot with ⟨-, hhalf⟩ | ⟨hbackup, -⟩
    · exact hhalf
    · exact absurd hbackup hne
  · rw [totalSeconds_allocate]
    exact le_totalSeconds_giveLeftover q.timeout
  · have hsolvers (slot : Slot Rat) (hslot : slot ∈ allocate neighbors.length q
        (q.portfolio.map record) members (gain neighbors.length members)) :
        slot.solver ∈ q.portfolio ∨ slot.solver = q.backup :=
      (hmem hslot).imp (fun hmember => hsublist.subset hmember.1) And.left
    exact outsider_last hsolvers hnodup (hsorted.imp fun hab hb => (hab hb).1)

/-- If no credit is negative, then the members of the best sub-portfolio share the timeout, there is
a share for every neighbour, and only the credit of the members kept decides whether the schedule
stays within the timeout. -/
theorem Tracks.exists_apportions (h : Tracks neighbors q.timeout record) (htimeout : 0 < q.timeout)
    (hneighbors : neighbors ≠ []) (hportfolio : q.portfolio ≠ []) (hdistinct : q.portfolio.Nodup)
    (hcredits : ∀ solver ∈ q.portfolio, ∀ x ∈ (record solver).credits, 0 ≤ x) (useArea : Bool) :
    ∃ members, members.Sublist (q.portfolio.map record) ∧
      bestSubPortfolio neighbors.length q.minSize useArea (q.portfolio.map record) =
        some (rate neighbors.length useArea members) ∧
      Apportions neighbors q (ofRecords neighbors.length q useArea (q.portfolio.map record)) ∧
      (neighbors.length : Rat) ≤
        shares neighbors.length members (gain neighbors.length members) ∧
      (Schedule.totalSeconds
          (ofRecords neighbors.length q useArea (q.portfolio.map record)).schedule ≤ q.timeout ↔
        keptCredit q.timeout (shares neighbors.length members (gain neighbors.length members))
          members ≤ shares neighbors.length members (gain neighbors.length members)) := by
  have hrecords : q.portfolio.map record ≠ [] := mt List.map_eq_nil_iff.mp hportfolio
  have hsize : neighbors.length ≠ 0 := mt List.length_eq_zero_iff.mp hneighbors
  obtain ⟨members, hmembers, hbest⟩ := exists_best hrecords neighbors.length q.minSize useArea
  have hnonneg : ∀ r ∈ members, ∀ x ∈ r.credits, 0 ≤ x :=
    forall_mem_of_sublist hmembers hcredits
  have hle := size_le_shares neighbors.length hnonneg
  rw [ofRecords_eq hsize hrecords hbest]
  refine ⟨members, hmembers, hbest, ?_, hle, ?_⟩
  · exact h.apportions htimeout hneighbors hdistinct hmembers hnonneg
  · exact totalSeconds_allocate_le_iff htimeout
      ((Nat.cast_pos.mpr (Nat.pos_of_ne_zero hsize)).trans_le hle)

/-- The number of shares that the timeout is divided into. -/
def divisor? (size : Nat) (q : SelectionQuery Rat) (useArea : Bool)
    (records : List (TrackRecord Rat)) : Option Rat :=
  (bestSubPortfolio size q.minSize useArea records).map fun c => shares size c.members c.gain

/-- If all credits lie between zero and one, then the timeout is handed out and nothing above it. -/
theorem Tracks.conserves (h : Tracks neighbors q.timeout record) (htimeout : 0 < q.timeout)
    (hneighbors : neighbors ≠ []) (hportfolio : q.portfolio ≠ []) (hdistinct : q.portfolio.Nodup)
    (hcredits : ∀ solver ∈ q.portfolio, ∀ x ∈ (record solver).credits, 0 ≤ x ∧ x ≤ 1)
    (useArea : Bool) :
    Conserves neighbors q (ofRecords neighbors.length q useArea (q.portfolio.map record)) ∧
      ∃ n ∈ divisor? neighbors.length q useArea (q.portfolio.map record),
        (neighbors.length : Rat) ≤ n := by
  obtain ⟨members, hmembers, hbest, happortions, hle, htotal⟩ :=
    h.exists_apportions htimeout hneighbors hportfolio hdistinct
      (fun solver hsolver x hx => (hcredits solver hsolver x hx).1) useArea
  have hunit : ∀ r ∈ members, ∀ x ∈ r.credits, 0 ≤ x ∧ x ≤ 1 :=
    forall_mem_of_sublist hmembers hcredits
  refine ⟨⟨happortions, htotal.mpr ?_⟩, _, ?_, hle⟩
  · refine (keptCredit_le fun r hr x hx => (hunit r hr x hx).1).trans ?_
    have hgain := gain_le_size neighbors.length fun r hr x hx => (hunit r hr x hx).2
    rw [shares_rat]
    linarith
  · rw [divisor?, hbest]
    rfl

end

/-- Without an objective the schedule hands out the timeout and nothing above it, whatever times
were recorded, and so it does with an objective if the scores lie between zero and one. There is at
least one share for every neighbour. -/
theorem schedule_conserves {neighbors : List (Entry Rat)} {q : SelectionQuery Rat}
    (htimeout : 0 < q.timeout) (hneighbors : neighbors ≠ []) (hportfolio : q.portfolio ≠ [])
    (hdistinct : q.portfolio.Nodup) :
    (Conserves neighbors q (forSatisfaction neighbors q) ∧
      ∃ n ∈ divisor? neighbors.length q false (q.portfolio.map (solvedRecord neighbors q.timeout)),
        (neighbors.length : Rat) ≤ n) ∧
    ((∀ entry ∈ neighbors, ∀ solver ∈ q.portfolio,
        0 ≤ entry.scoreOf solver ∧ entry.scoreOf solver ≤ 1) →
      Conserves neighbors q (forOptimization neighbors q) ∧
        ∃ n ∈ divisor? neighbors.length q true (q.portfolio.map (scoredRecord neighbors q.timeout)),
          (neighbors.length : Rat) ≤ n) := by
  constructor
  · refine (tracks_solvedRecord neighbors q.timeout).conserves htimeout hneighbors hportfolio
      hdistinct (fun solver _ x hx => ?_) false
    rw [credits_solvedRecord] at hx
    obtain ⟨entry, -, rfl⟩ := List.mem_map.mp hx
    split <;> norm_num
  · intro hscores
    refine (tracks_scoredRecord neighbors q.timeout).conserves htimeout hneighbors hportfolio
      hdistinct (fun solver hsolver => ?_) true
    exact (forall_credits_scoredRecord neighbors q.timeout solver).mpr fun entry hentry =>
      hscores entry hentry solver hsolver

/-- Three solvers with a backup solver from outside the portfolio. -/
def guardedQuery : SelectionQuery Rat := { trioQuery with backup := "d" }

/-- Besides two instances that solvers handle, one that no solver handles. -/
def guardedNeighbors : List (Entry Rat) :=
  ⟨"i0", [], [("a", trioOutcome 10 none), ("b", trioOutcome 10 (some 0))]⟩ :: trioNeighbors

/-- The members of a sub-portfolio and the backup solver from outside share ten seconds. -/
theorem guarded_conserves : 0 < guardedQuery.timeout ∧ guardedNeighbors ≠ [] ∧
    guardedQuery.portfolio ≠ [] ∧ guardedQuery.portfolio.Nodup ∧
    (∀ entry ∈ guardedNeighbors, ∀ solver ∈ guardedQuery.portfolio,
      0 ≤ entry.scoreOf solver ∧ entry.scoreOf solver ≤ 1) ∧
    Conserves guardedNeighbors guardedQuery (forSatisfaction guardedNeighbors guardedQuery) ∧
    Conserves guardedNeighbors guardedQuery (forOptimization guardedNeighbors guardedQuery) := by
  have htimeout : 0 < guardedQuery.timeout := by decide +kernel
  have hneighbors : guardedNeighbors ≠ [] := List.cons_ne_nil _ _
  have hportfolio : guardedQuery.portfolio ≠ [] := List.cons_ne_nil _ _
  have hdistinct : guardedQuery.portfolio.Nodup := by decide +kernel
  have hscores : ∀ entry ∈ guardedNeighbors, ∀ solver ∈ guardedQuery.portfolio,
      0 ≤ entry.scoreOf solver ∧ entry.scoreOf solver ≤ 1 := by decide +kernel
  obtain ⟨⟨hsatisfaction, -⟩, hoptimization⟩ :=
    schedule_conserves htimeout hneighbors hportfolio hdistinct
  exact ⟨htimeout, hneighbors, hportfolio, hdistinct, hscores, hsatisfaction,
    (hoptimization hscores).1⟩

end Selection

end SolverPortfolio

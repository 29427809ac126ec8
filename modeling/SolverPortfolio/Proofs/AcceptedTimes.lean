import SolverPortfolio.CommandLine.Settings
import SolverPortfolio.Proofs.RoundedOperations

/-
# Times on the command line

A command line is accepted only if each value was read by its option, so that the times are finite
and not negative. That is not enough for them to be durations: numbers of seconds of `2 ^ 64` and
more are finite, but no durations.

Main definition: `GivenArguments.IsRead`.
Main statements: `GivenArguments.IsRead.readArgument`, `Duration.ofSeconds?_eq_none_iff`,
`Settings.run?_eq_none_iff`.
-/

namespace SolverPortfolio

/-! ## What was read -/

/-- A computation that goes through has gone through its first part. -/
theorem exists_of_bind_eq_ok {ε α β : Type} {x : Except ε α} {f : α → Except ε β} {b : β}
    (h : x >>= f = .ok b) : ∃ a, x = .ok a ∧ f a = .ok b := by
  cases x with
  | error e => cases h
  | ok a => exact ⟨a, rfl, h⟩

namespace GivenArguments

/-- Every value that is stored was read as its option asks. -/
def IsRead (g : GivenArguments) : Prop :=
  ∀ o v, (o, v) ∈ g.values → ∃ text, o.kind.read text = .ok v

variable {g g' : GivenArguments}

/-- At first nothing is stored. -/
theorem isRead_none : GivenArguments.none.IsRead := fun _ _ h => by cases h

/-- What is stored does not depend on what is pending. -/
theorem IsRead.of_values_eq (hg : g.IsRead) (h : g'.values = g.values) : g'.IsRead :=
  fun o v hmem => hg o v (h ▸ hmem)

/-- A value that is stored is read first. -/
theorem IsRead.setValue (hg : g.IsRead) {o : ValueOption} {value : String}
    (h : g.setValue o value = .ok g') : g'.IsRead := by
  unfold GivenArguments.setValue at h
  split at h
  · cases h
  · cases hread : o.kind.read value with
    | error e =>
      rw [hread] at h
      cases h
    | ok v =>
      rw [hread] at h
      cases h
      intro o' v' hmem
      rcases List.mem_cons.mp hmem with heq | hmem
      · cases heq
        exact ⟨value, hread⟩
      · exact hg o' v' hmem

/-- Reading what is pending stores at most one more value. -/
theorem IsRead.resolve (hg : g.IsRead) (h : g.resolve = .ok g') : g'.IsRead := by
  unfold GivenArguments.resolve at h
  dsimp only at h
  split at h
  · cases h
    exact hg
  · cases h
  · refine IsRead.setValue ?_ h
    exact hg.of_values_eq rfl
  · split at h
    · cases h
    · cases h
      exact hg.of_values_eq rfl

/-- A value attached to an option is read as the option asks. -/
theorem IsRead.attach (hg : g.IsRead) {o : ValueOption} {value : String}
    (h : g.attach o value = .ok g') : g'.IsRead := by
  obtain ⟨g₁, hresolve, hset⟩ := exists_of_bind_eq_ok h
  refine IsRead.setValue ?_ hset
  exact (hg.resolve hresolve).of_values_eq rfl

/-- An option whose value follows stores no value of its own. -/
theorem IsRead.beginOption (hg : g.IsRead) {o : ValueOption}
    (h : g.beginOption o = .ok g') : g'.IsRead := by
  obtain ⟨g₁, hresolve, hset⟩ := exists_of_bind_eq_ok h
  cases hset
  exact (hg.resolve hresolve).of_values_eq rfl

/-- A flag stores no value. -/
theorem IsRead.setFlag (hg : g.IsRead) {f : FlagOption} (h : g.setFlag f = .ok g') :
    g'.IsRead := by
  obtain ⟨g₁, hresolve, hset⟩ := exists_of_bind_eq_ok h
  have hg₁ := hg.resolve hresolve
  split at hset
  · cases hset
  · cases hset
  · split at hset
    · cases hset
    · cases hset
      exact hg₁.of_values_eq rfl

/-- An operand stores no value. -/
theorem IsRead.beginOperand (hg : g.IsRead) {value : String}
    (h : g.beginOperand value = .ok g') : g'.IsRead := by
  unfold GivenArguments.beginOperand at h
  split at h
  · obtain ⟨g₁, hresolve, hset⟩ := exists_of_bind_eq_ok h
    cases hset
    exact (hg.resolve hresolve).of_values_eq rfl
  · cases h

/-- Long options store values that were read. -/
theorem IsRead.readLong (hg : g.IsRead) {name : String} {value : Option String}
    (h : g.readLong name value = .ok g') : g'.IsRead := by
  unfold GivenArguments.readLong at h
  split at h
  · cases h
  · exact hg.attach h
  · exact hg.beginOption h
  · cases h
  · exact hg.setFlag h

/-- Joined short options store values that were read. -/
theorem IsRead.readShorts (hg : g.IsRead) {names : List Char}
    (h : g.readShorts names = .ok g') : g'.IsRead := by
  induction names generalizing g with
  | nil =>
    cases h
    exact hg
  | cons c rest ih =>
    unfold GivenArguments.readShorts at h
    split at h
    · cases h
    · split at h
      · cases h
      · next hflag => exact ih (hg.setFlag hflag) h
    · split at h
      · exact hg.beginOption h
      · exact hg.attach h
      · exact hg.attach h

/-- An argument stores values that were read. -/
theorem IsRead.readArgument (hg : g.IsRead) {argument : String}
    (h : g.readArgument argument = .ok g') : g'.IsRead := by
  unfold GivenArguments.readArgument at h
  split at h
  · exact hg.beginOperand h
  · split at h
    · cases h
      exact hg.of_values_eq rfl
    · split at h
      · exact hg.readLong h
      · exact hg.readLong h
    · exact hg.readShorts h
    · unfold GivenArguments.readPlain at h
      split at h
      · cases h
        exact hg.of_values_eq rfl
      · exact hg.beginOperand h

/-- A command line stores values that were read. -/
theorem IsRead.foldlM (hg : g.IsRead) {arguments : List String}
    (h : arguments.foldlM GivenArguments.readArgument g = .ok g') : g'.IsRead := by
  induction arguments generalizing g with
  | nil =>
    cases h
    exact hg
  | cons argument arguments ih =>
    rw [List.foldlM_cons] at h
    obtain ⟨g₁, hread, hrest⟩ := exists_of_bind_eq_ok h
    exact ih (hg.readArgument hread) hrest

end GivenArguments

/-- What is read without a usage error was there. -/
theorem eq_some_of_orUsageError {α : Type} {e : UsageError} {found : Option α} {a : α}
    (h : orUsageError e found = .ok a) : found = some a := by
  cases found with
  | none => cases h
  | some b =>
    cases h
    rfl

/-- A value that is made of what is read was made of something. -/
theorem exists_of_map_orUsageError {α : Type} {e : UsageError} {found : Option α}
    {f : α → OptionValue} {v : OptionValue} (h : (orUsageError e found).map f = .ok v) :
    ∃ a, found = some a ∧ f a = v := by
  cases found with
  | none => cases h
  | some a =>
    cases h
    exact ⟨a, rfl, rfl⟩

/-- A number of seconds is read as a number that is not negative. -/
theorem ValueKind.readNonNegative?_of_read {kind : ValueKind} {text : String} {x : Float}
    (h : kind.read text = .ok (.seconds x)) : readNonNegative? text = some x := by
  unfold ValueKind.read at h
  cases kind with
  | seconds =>
    obtain ⟨y, hread, heq⟩ := exists_of_map_orUsageError h
    cases heq
    exact hread
  | path =>
    dsimp only at h
    split at h <;> cases h
  | text => cases h
  | count largest | boundedInteger largest | goal | verbosity =>
    obtain ⟨y, -, heq⟩ := exists_of_map_orUsageError h
    cases heq

namespace GivenArguments

variable {g : GivenArguments}

/-- A number that an option was given is one that was read. -/
theorem IsRead.exists_of_seconds? (hg : g.IsRead) {o : ValueOption} {x : Float}
    (h : g.seconds? o = some x) : ∃ text, readNonNegative? text = some x := by
  unfold GivenArguments.seconds? at h
  split at h
  · next hlookup =>
    cases h
    obtain ⟨before, after, heq, -⟩ := List.lookup_eq_some_iff.mp hlookup
    have hmem : (o, .seconds x) ∈ g.values := by
      rw [heq]
      exact List.mem_append_right _ List.mem_cons_self
    obtain ⟨text, hread⟩ := hg o (.seconds x) hmem
    exact ⟨text, ValueKind.readNonNegative?_of_read hread⟩
  · cases h

end GivenArguments

/-- The numbers that are read are finite and not negative. -/
theorem of_readNonNegative? {text : String} {x : Float} (h : readNonNegative? text = some x) :
    x.isFinite = true ∧ ¬ x < 0 := by
  unfold readNonNegative? at h
  split at h
  · next y hy =>
    split at h
    · next haccepted =>
      cases h
      rw [Bool.and_eq_true, Bool.not_eq_true', decide_eq_false_iff_not] at haccepted
      exact haccepted
    · cases h
  · cases h

namespace Arguments

/-- The times of a command line that is accepted are finite and not negative. -/
theorem times_of_parse {argv : List String} {a : Arguments} (h : parse argv = .ok a) {x : Float}
    (hx : a.timeout = some x ∨ a.waitTime = some x ∨ a.restartTime = some x) :
    x.isFinite = true ∧ ¬ x < 0 := by
  obtain ⟨g, hfold, hrest⟩ := exists_of_bind_eq_ok h
  obtain ⟨g₁, hresolve, hgiven⟩ := exists_of_bind_eq_ok hrest
  have hread : g₁.IsRead := (GivenArguments.isRead_none.foldlM hfold).resolve hresolve
  have hgiven' := eq_some_of_orUsageError hgiven
  simp only [ofGiven?, Option.bind_eq_bind, Option.bind_eq_some_iff] at hgiven'
  obtain ⟨model, -, kb, -, lims, -, heq⟩ := hgiven'
  cases heq
  have haccepted {o : ValueOption} (h : g₁.seconds? o = some x) : x.isFinite = true ∧ ¬ x < 0 := by
    obtain ⟨text, htext⟩ := hread.exists_of_seconds? h
    exact of_readNonNegative? htext
  rcases hx with hx | hx | hx
  · exact haccepted hx
  · exact haccepted hx
  · exact haccepted hx

end Arguments

/-! ## Durations -/

namespace Duration

open Number

/-- The first number of seconds that is too large. -/
def firstTooLong : Float := Number.ofRatio (Nat.pow 2 64) 1

/-- It stands for `2 ^ 64`. -/
theorem denotes_firstTooLong : Denotes false (2 ^ 64) (parts firstTooLong) := by
  obtain ⟨y, hy, hdenotes⟩ := exists_denotes_ofNat (Nat.pow 2 64)
  have hcast : ((Nat.pow 2 64 : ℕ) : ℚ) = 2 ^ 64 := by norm_num
  rw [hcast] at hy
  rwa [hy.eq_of_isDouble (isDouble_two_pow 64)] at hdenotes

/-- Of the doubles below `2 ^ 64`, none is above `2 ^ 64 - 1`. -/
theorem le_of_isDouble {a : ℚ} (ha : IsDouble a) (hlt : a < 2 ^ 64) : a ≤ 2 ^ 64 - 1 := by
  rcases lt_or_ge |a| (2 ^ 53) with hsmall | hlarge
  · have := lt_of_abs_lt hsmall
    linarith
  · obtain ⟨n, rfl⟩ := ha.exists_int hlarge
    have hn : n < 2 ^ 64 := by exact_mod_cast hlt
    exact_mod_cast Int.le_sub_one_of_lt hn

/-- A fraction that is a double is a number of seconds unless it is too large: the rounding to
nanoseconds does not matter. -/
theorem ofRatio?_eq_none_iff {num den : ℕ} {a : ℚ} (hden : 0 < den) (heq : (num : ℚ) / den = a)
    (ha : IsDouble a) : ofRatio? num den = none ↔ 2 ^ 64 ≤ a := by
  have hnearest : IsNearestInt (a * perSecond) (halfToEven (num * perSecond) den) := by
    have hscaled : a * perSecond = (num * perSecond : ℕ) / den := by
      rw [← heq]
      push_cast
      ring
    exact hscaled ▸ isNearestInt_halfToEven hden
  rw [ofRatio?]
  generalize halfToEven (num * perSecond) den = n at hnearest ⊢
  have hsecond : (perSecond : ℚ) = 1000000000 := by norm_num [perSecond]
  have hlongest : (longest : ℚ) + 1 = 2 ^ 64 * 1000000000 := by norm_num [longest, perSecond]
  rw [hsecond] at hnearest
  constructor
  · intro hnone
    by_contra hlt
    have hle := le_of_isDouble ha (not_le.mp hlt)
    have hshort : (n : ℤ) ≤ longest := by
      refine hnearest.le_of_le ?_
      rw [Int.cast_natCast]
      linarith
    rw [if_pos (by exact_mod_cast hshort)] at hnone
    cases hnone
  · intro hge
    have hlong : ((longest + 1 : ℕ) : ℤ) ≤ n := by
      refine hnearest.ge_of_ge ?_
      push_cast
      linarith
    exact if_neg (by omega)

/-- A finite number of seconds that is not negative is a duration unless it is too large. -/
theorem ofSeconds?_eq_none_iff {x : Float} {a : ℚ} (hx : Denotes false a (parts x))
    (ha : a < 2 ^ 1024) : ofSeconds? x = none ↔ 2 ^ 64 ≤ a := by
  obtain ⟨m, e, hparts, rfl⟩ := exists_parts_of_denotes ha hx
  have hdouble := (level_of_parts hparts).1.isRounded.isDouble
  rw [ofSeconds?, hparts]
  dsimp only
  rw [Bool.false_and, if_neg Bool.false_ne_true]
  split
  · next he =>
    refine ofRatio?_eq_none_iff one_pos ?_ hdouble
    rw [Nat.cast_one, div_one, Nat.pow_eq]
    push_cast
    rw [← zpow_natCast, Int.toNat_of_nonneg he]
  · next he =>
    refine ofRatio?_eq_none_iff (Nat.two_pow_pos _) ?_ hdouble
    rw [Nat.pow_eq]
    push_cast
    rw [← zpow_natCast, Int.toNat_of_nonneg (by omega), zpow_neg, div_inv_eq_mul]

end Duration

namespace Settings

open Number Duration

/-- A number that is not negative is not raised. -/
theorem larger_zero {x : Float} (hx : x.isNaN = false) (hnonneg : ¬ x < 0) :
    Quantity.larger x 0 = x := by
  have hlow : Quantity.lt x 0 = false := decide_eq_false hnonneg
  have hself : (x == x) = true := (beq_iff hx hx).mpr rfl
  rw [Quantity.larger, hlow, if_neg Bool.false_ne_true]
  exact if_pos hself

/-- A time that is finite and not negative is no duration just if it is too large. -/
theorem duration?_eq_none_iff {x : Float} (hfinite : x.isFinite = true) (hnonneg : ¬ x < 0) :
    duration? x = none ↔ firstTooLong ≤ x := by
  have hfinite' : x.toModel.unpack.isFinite = true := hfinite
  rcases unpack_cases x with hnan | ⟨s, hzero⟩ | hneg | htop | ⟨a, hx, ha⟩
  · rw [hnan] at hfinite'
    cases hfinite'
  · -- A zero may have a sign.
    have hbits := (Float.Model.UnpackedFloat.pack_unpack_of_valid x.toModel.valid).symm.trans
      (congrArg (Float.Model.UnpackedFloat.pack .binary64) hzero)
    cases s with
    | positive =>
      obtain rfl : x = 0 := eq_of_pack_unpack hbits
      decide +kernel
    | negative =>
      obtain rfl : x = -0.0 := eq_of_pack_unpack hbits
      decide +kernel
  · exact absurd hneg hnonneg
  · rw [htop] at hfinite'
    cases hfinite'
  · obtain ⟨m, e, hparts, -⟩ := exists_parts_of_denotes ha hx
    rw [duration?, larger_zero (isNaN_of_parts hparts) hnonneg, ofSeconds?_eq_none_iff hx ha,
      le_iff_of_denotes denotes_firstTooLong hx (lt_two_pow_1024 le_rfl (by norm_num)) ha]

/-- The times are finite and not negative, whether they are given or not. -/
theorem getD_of_parse {argv : List String} {a : Arguments} (h : Arguments.parse argv = .ok a)
    {given : Option Float} (hgiven : a.timeout = given ∨ a.waitTime = given ∨ a.restartTime = given)
    (default : Float) (hdefault : default.isFinite = true ∧ ¬ default < 0) :
    (given.getD default).isFinite = true ∧ ¬ given.getD default < 0 := by
  cases given with
  | none => exact hdefault
  | some x => exact Arguments.times_of_parse h hgiven

/-- There are settings of a run just if all times are durations. -/
theorem run?_eq_none_iff_duration? (s : Settings) : s.run? = none ↔
    duration? s.timeout = none ∨ duration? s.waitTime = none ∨ duration? s.restartTime = none := by
  unfold run?
  cases duration? s.timeout with
  | none => exact iff_of_true rfl (Or.inl rfl)
  | some timeout =>
    cases duration? s.waitTime with
    | none => exact iff_of_true rfl (Or.inr (Or.inl rfl))
    | some waitTime =>
      cases duration? s.restartTime with
      | none => exact iff_of_true rfl (Or.inr (Or.inr rfl))
      | some restartTime => exact iff_of_false (by simp) (by simp)

/-- Of a command line that is accepted, the times are durations unless one of them is `2 ^ 64`
seconds or more. This is about the times as durations only. For a run to start, the end of its
timeout has to be an instant besides, which a clock that counts seconds in signed words of 64 bits
has only for a timeout of less than `2 ^ 63` seconds; here instants have no end. -/
theorem run?_eq_none_iff {argv : List String} {a : Arguments} (h : Arguments.parse argv = .ok a)
    (cores : ℕ) :
    (ofArguments a cores).run? = none ↔
      firstTooLong ≤ (ofArguments a cores).timeout ∨
      firstTooLong ≤ (ofArguments a cores).waitTime ∨
      firstTooLong ≤ (ofArguments a cores).restartTime := by
  obtain ⟨htimeout, htimeout'⟩ := getD_of_parse h (Or.inl rfl) 1800 (by decide +kernel)
  obtain ⟨hwait, hwait'⟩ := getD_of_parse h (Or.inr (Or.inl rfl)) 2 (by decide +kernel)
  obtain ⟨hrestart, hrestart'⟩ := getD_of_parse h (Or.inr (Or.inr rfl)) 5 (by decide +kernel)
  exact (run?_eq_none_iff_duration? _).trans (or_congr (duration?_eq_none_iff htimeout htimeout')
    (or_congr (duration?_eq_none_iff hwait hwait') (duration?_eq_none_iff hrestart hrestart')))

/-- A check that is passed by what is computed is passed by something. -/
theorem exists_of_toOption_map {ε α : Type} {result : Except ε α} {check : α → Bool}
    (h : result.toOption.map check = some true) : ∃ a, result = .ok a ∧ check a = true := by
  cases result with
  | error e => cases h
  | ok a => exact ⟨a, rfl, Option.some.inj h⟩

/-- A timeout of thirty seconds is accepted, and with the default times it is not too long. -/
theorem run?_thirty :
    ∃ a, Arguments.parse ["m.mzn", "--kb", "kb", "--lims", "lims", "-T", "30"] = .ok a ∧
      (ofArguments a 1).run? ≠ none ∧
      ¬ (firstTooLong ≤ (ofArguments a 1).timeout ∨ firstTooLong ≤ (ofArguments a 1).waitTime ∨
        firstTooLong ≤ (ofArguments a 1).restartTime) := by
  have hrun : (Arguments.parse ["m.mzn", "--kb", "kb", "--lims", "lims", "-T", "30"]).toOption.map
      (fun a => (ofArguments a 1).run?.isSome) = some true := by decide +kernel
  obtain ⟨a, ha, hsome⟩ := exists_of_toOption_map hrun
  have hne : (ofArguments a 1).run? ≠ none := Option.isSome_iff_ne_none.mp hsome
  exact ⟨a, ha, hne, mt (run?_eq_none_iff ha 1).mpr hne⟩

/-- A timeout of `10 ^ 300` seconds is accepted, though it is no duration. -/
theorem run?_1e300 :
    ∃ a, Arguments.parse ["m.mzn", "--kb", "kb", "--lims", "lims", "-T", "1e300"] = .ok a ∧
      (ofArguments a 1).run? = none := by
  have hrun : (Arguments.parse ["m.mzn", "--kb", "kb", "--lims", "lims", "-T", "1e300"]).toOption.map
      (fun a => (ofArguments a 1).run?.isNone) = some true := by decide +kernel
  obtain ⟨a, ha, hnone⟩ := exists_of_toOption_map hrun
  exact ⟨a, ha, Option.isNone_iff_eq_none.mp hnone⟩

end Settings

end SolverPortfolio

import SolverPortfolio.Proofs.Handover

/-
# The suspended workers

A run keeps a list of the workers it has suspended, in the order in which it suspended
them. The list leaves out no worker that is suspended, and names nobody twice. Some of
those on the list may have ended in the meantime, but none of them is at work.

Main definitions: `Run.Lined`.
Main statements: `Situation.Arises.lined`, `Situation.Arises.exists_suspended`.
-/

namespace SolverPortfolio

namespace Run

variable {α : Type} {now : Instant} {r r' : Run α} {e : RunEvent}

/-- The suspended workers stand in line. -/
structure Lined (r : Run α) : Prop where
  /-- The worker being served takes its turns on the shared core. -/
  served : ∀ slot, r.current = some slot →
    ∃ w, r.worker? slot.worker = some w ∧ w.placement = .queued
  queued : ∀ id w, r.worker? id = some w → w.phase = .suspended → w.placement = .queued
  listed : ∀ id w, r.worker? id = some w → w.phase = .suspended → id ∈ r.suspended
  rests : ∀ id ∈ r.suspended, ∃ w, r.worker? id = some w ∧ w.Rests
  nodup : r.suspended.Nodup

/-- The line stays as long as the shared core is left alone. -/
theorem Lined.calm (h : r.Lined) (hc : r.Calm r') : r'.Lined := by
  have hold {id : WorkerId} {w' : Worker} (hw' : r'.worker? id = some w')
      (hp : w'.phase = .suspended) :
      ∃ w, r.worker? id = some w ∧ w.phase = .suspended ∧ w'.placement = w.placement := by
    obtain ⟨w, hw, hphase⟩ := (r.isSuspended_iff id).mp
      (hc.isSuspended id ((r'.isSuspended_iff id).mpr ⟨w', hw', hp⟩))
    obtain ⟨v, hv, habides⟩ := hc.worker id w hw
    cases Option.some.inj (hv.symm.trans hw')
    exact ⟨w, hw, hphase, habides.1⟩
  constructor
  case served =>
    intro slot hslot
    rw [hc.current] at hslot
    obtain ⟨w, hw, hq⟩ := h.served slot hslot
    obtain ⟨w', hw', habides⟩ := hc.worker _ w hw
    exact ⟨w', hw', habides.1.trans hq⟩
  case queued =>
    intro id w' hw' hp
    obtain ⟨w, hw, hphase, hplace⟩ := hold hw' hp
    exact hplace.trans (h.queued id w hw hphase)
  case listed =>
    intro id w' hw' hp
    obtain ⟨w, hw, hphase, -⟩ := hold hw' hp
    rw [hc.suspended]
    exact h.listed id w hw hphase
  case rests =>
    intro id hid
    rw [hc.suspended] at hid
    obtain ⟨w, hw, hrests⟩ := h.rests id hid
    obtain ⟨w', hw', habides⟩ := hc.worker id w hw
    exact ⟨w', hw', habides.2 hrests⟩
  case nodup =>
    rw [hc.suspended]
    exact h.nodup

/-- The worker whose slot runs out joins the line at its end, or ends. -/
theorem Lined.slotExpired (h : r.Lined) (hr : Response now r .slotExpired r') : r'.Lined := by
  cases hr with
  | idle _ => exact h
  | @expired w slot n hc hs hw he =>
    have hold {id : WorkerId} {v : Worker}
        (hv : (r.workers.modify w.id (·.terminate .slotExpired))[id]? = some v)
        (hp : v.phase = .suspended) : r.worker? id = some v := by
      rcases getElem?_modify_cases hv with ⟨-, hv⟩ | ⟨-, u, -, rfl⟩
      · exact hv
      · cases hp
    constructor
    case served => exact fun slot h => by cases h
    case queued => exact fun id v hv hp => h.queued id v (hold hv hp) hp
    case listed => exact fun id v hv hp => h.listed id v (hold hv hp) hp
    case rests =>
      intro id hid
      obtain ⟨v, hv, hrests⟩ := h.rests id hid
      exact exists_getElem?_modify (f := (·.terminate .slotExpired)) (T := fun _ v => v.Rests) hv
        (fun _ => hrests) fun _ => Or.inl rfl
    case nodup => exact h.nodup
  | @suspended w slot n hc hs hw hp he =>
    obtain ⟨v, hv, hq⟩ := h.served slot hc
    rw [hs, hw] at hv
    cases hv
    -- A worker that solves is not in the line.
    have hnew : w.id ∉ r.suspended := by
      intro hmem
      obtain ⟨v, hv, hrests⟩ := h.rests w.id hmem
      cases hv.symm.trans hw
      rcases hrests with h | h <;> cases hp.symm.trans h
    have hold {id : WorkerId} {v : Worker}
        (hv : (r.workers.modify w.id (·.suspend))[id]? = some v) :
        r.worker? id = some v ∨ id = w.id ∧ v = w.suspend := by
      rcases getElem?_modify_cases hv with ⟨-, hv⟩ | ⟨rfl, u, hu, rfl⟩
      · exact Or.inl hv
      · cases Option.some.inj (hu.symm.trans hw)
        exact Or.inr ⟨rfl, rfl⟩
    constructor
    case served => exact fun slot h => by cases h
    case queued =>
      intro id v hv hphase
      rcases hold hv with hv | ⟨-, rfl⟩
      · exact h.queued id v hv hphase
      · exact hq
    case listed =>
      intro id v hv hphase
      rcases hold hv with hv | ⟨rfl, -⟩
      · exact List.mem_append_left _ (h.listed id v hv hphase)
      · exact List.mem_append_right _ (List.mem_singleton_self _)
    case rests =>
      intro id hid
      have hrests : ∃ v, r.worker? id = some v ∧ (w.id ≠ id → v.Rests) := by
        rcases List.mem_append.mp hid with hid | hid
        · obtain ⟨v, hv, hrests⟩ := h.rests id hid
          exact ⟨v, hv, fun _ => hrests⟩
        · rw [List.mem_singleton.mp hid]
          exact ⟨w, hw, fun hne => absurd rfl hne⟩
      obtain ⟨v, hv, hrests⟩ := hrests
      exact exists_getElem?_modify (f := (·.suspend)) (T := fun _ v => v.Rests) hv hrests
        fun _ => Or.inr rfl
    case nodup =>
      refine List.nodup_append.mpr ⟨h.nodup, by simp, fun a ha b hb => ?_⟩
      rw [List.mem_singleton.mp hb]
      exact ne_of_mem_of_not_mem ha hnew

/-- A newcomer is not suspended. -/
theorem Newcomer.phase_ne_suspended {name : String} {placement : Placement} {w : Worker}
    {effects : List Effect} (h : r.Newcomer name placement now w effects) :
    w.phase ≠ .suspended := by
  cases h <;> simp [Worker.startConverting, Worker.terminate]

/-- The line stays in a move; a worker that is resumed leaves it. -/
theorem Lined.move (h : r.Lined) (hm : Move now r r') : r'.Lined := by
  cases hm with
  | report n | plan queue carry => exact ⟨h.served, h.queued, h.listed, h.rests, h.nodup⟩
  | leave _ => exact ⟨fun slot h => (by cases h), h.queued, h.listed, h.rests, h.nodup⟩
  | tidy =>
    refine ⟨h.served, h.queued, fun id w hw hp => ?_, fun id hid => ?_, h.nodup.filter _⟩
    · exact List.mem_filter.mpr ⟨h.listed id w hw hp, (r.isSuspended_iff id).mpr ⟨w, hw, hp⟩⟩
    · exact h.rests id (List.mem_filter.mp hid).1
  | @keep w deadline hw hl hs hc hq =>
    refine ⟨fun slot hslot => ?_, h.queued, h.listed, h.rests, h.nodup⟩
    cases hslot
    exact ⟨w, hw, hq⟩
  | @resume w deadline n hw hs hc =>
    have hold {id : WorkerId} {v : Worker}
        (hv : (r.workers.modify w.id (·.resume))[id]? = some v) (hp : v.phase = .suspended) :
        r.worker? id = some v ∧ id ≠ w.id := by
      rcases getElem?_modify_cases hv with ⟨hne, hv⟩ | ⟨-, u, -, rfl⟩
      · exact ⟨hv, fun heq => hne heq.symm⟩
      · cases hp
    constructor
    case served =>
      intro slot hslot
      cases hslot
      exact exists_getElem?_modify (f := (·.resume)) (T := fun _ v => v.placement = .queued) hw
        (fun hne => absurd rfl hne) fun _ => h.queued w.id w hw hs
    case queued => exact fun id v hv hp => h.queued id v (hold hv hp).1 hp
    case listed =>
      intro id v hv hp
      obtain ⟨hv, hne⟩ := hold hv hp
      exact List.mem_filter.mpr ⟨h.listed id v hv hp, by simpa using hne⟩
    case rests =>
      intro id hid
      obtain ⟨hmem, hne⟩ := List.mem_filter.mp hid
      obtain ⟨v, hv, hrests⟩ := h.rests id hmem
      exact exists_getElem?_modify (T := fun _ v => v.Rests) hv (fun _ => hrests)
        fun heq => absurd heq.symm (by simpa using hne)
    case nodup => exact h.nodup.filter _
  | @recruit name w effects deadline hn hl hc =>
    have hstay {id : WorkerId} {v : Worker} (hv : r.worker? id = some v) :
        (r.workers ++ [w])[id]? = some v := by
      obtain ⟨hlt, -⟩ := List.getElem?_eq_some_iff.mp hv
      rw [List.getElem?_append_left hlt]
      exact hv
    have hold {id : WorkerId} {v : Worker} (hv : (r.workers ++ [w])[id]? = some v)
        (hp : v.phase = .suspended) : r.worker? id = some v := by
      rcases getElem?_concat_cases hv with hv | ⟨-, rfl⟩
      · exact hv
      · exact absurd hp hn.phase_ne_suspended
    constructor
    case served =>
      intro slot hslot
      dsimp only at hslot
      split at hslot
      · cases hslot
        refine ⟨w, ?_, hn.name_eq.2⟩
        rw [hn.id_eq]
        exact List.getElem?_concat_length
      · cases hslot
    case queued => exact fun id v hv hp => h.queued id v (hold hv hp) hp
    case listed => exact fun id v hv hp => h.listed id v (hold hv hp) hp
    case rests =>
      intro id hid
      obtain ⟨v, hv, hrests⟩ := h.rests id hid
      exact ⟨v, hstay hv, hrests⟩
    case nodup => exact h.nodup

end Run

namespace Situation

variable {α : Type} {P : Discipline} {o : Opening α} {s : Situation α}

/-- The suspended workers stand in line in all that arises. -/
theorem Arises.lined (h : Arises P o s) : s.run.Lined := by
  apply h.invariant (I := fun s => s.run.Lined)
  · intro r hr
    have hphase {id : WorkerId} {w : Worker} (hw : r.worker? id = some w) :
        w.phase ≠ .suspended := by
      obtain ⟨-, r₀, name, now, effects, hn⟩ := hr.worker id w hw
      exact hn.phase_ne_suspended
    constructor
    case served =>
      intro slot hslot
      cases hr.current.symm.trans hslot
    case queued => exact fun id w hw hp => absurd hp (hphase hw)
    case listed => exact fun id w hw hp => absurd hp (hphase hw)
    case rests =>
      intro id hid
      rw [hr.suspended] at hid
      cases hid
    case nodup =>
      rw [hr.suspended]
      exact List.nodup_nil
  · intro s e s' ha hs hc
    have hn := ha.founded.numbered
    cases hc with
    | move now hm => exact hs.move hm
    | intervene now hi => exact hs.calm (hi.calm hn)
    | @respond e r' now hh hr =>
      by_cases he : e = .slotExpired
      · subst he
        exact hs.slotExpired hr
      · exact hs.calm (hr.calm hn fun h => absurd h he)

/-- The line is no longer than there are workers. -/
theorem Arises.length_suspended_le (h : Arises P o s) :
    s.run.suspended.length ≤ s.run.workers.length := by
  have hsub : s.run.suspended ⊆ List.range s.run.workers.length := by
    intro id hid
    obtain ⟨w, hw, -⟩ := h.lined.rests id hid
    obtain ⟨hlt, -⟩ := List.getElem?_eq_some_iff.mp hw
    exact List.mem_range.mpr hlt
  have hle := (h.lined.nodup.subperm hsub).length_le
  rwa [List.length_range] at hle

/-- A live worker of the shared core is the one that was added last for its solver. -/
theorem Arises.lastQueued?_eq (h : Arises P o s) {id : WorkerId} {w : Worker}
    (hw : s.run.worker? id = some w) (hq : w.placement = .queued) (hl : w.isLive) :
    s.run.lastQueued? w.name = some w := by
  have hn := h.founded.numbered
  obtain ⟨v, hlast, hsame⟩ := hn.exists_lastQueued? hw hq
  rcases hsame with rfl | hlt
  · exact hlast
  · obtain ⟨hv, hqv, hname⟩ := hn.lastQueued? hlast
    have hdead := h.ordered.lone w.id v.id w v (hn.worker?_id hw) hv hlt hq hqv hname.symm
    cases hl.symm.trans hdead

/-- A suspended worker is the one that was added last for its solver. -/
theorem Arises.exists_suspended (ha : Arises P o s) {id : WorkerId}
    (hid : s.run.isSuspended id) :
    ∃ w, s.run.worker? id = some w ∧ w.id = id ∧ w.phase = .suspended ∧
      s.run.lastQueued? (s.run.nameOf id) = some w := by
  obtain ⟨w, hw, hphase⟩ := (s.run.isSuspended_iff id).mp hid
  have hlive : w.isLive := Worker.isLive_iff.mpr (by rw [hphase]; decide)
  have hlast := ha.lastQueued?_eq hw (ha.lined.queued id w hw hphase) hlive
  have hname : s.run.nameOf id = w.name := by rw [Run.nameOf, hw]; rfl
  rw [hname]
  exact ⟨w, hw, ha.founded.numbered id w hw, hphase, hlast⟩

end Situation

end SolverPortfolio

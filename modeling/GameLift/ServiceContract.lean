import Mathlib.Data.Set.Card
import GameLift.GameLiftManager

/-! What the service documents about player sessions, and what the manager's
counters are worth under it. Nothing else is assumed of the service. -/

namespace GameLift

inductive Status where
  | unknown
  | reserved
  | active
  | completed
deriving DecidableEq, Repr

/-- An id is accepted exactly when it is reserved, which makes it active, and
removed exactly when it is active, which makes it completed. -/
structure Lawful {ε : Type} (S : Sdk ε) (status : ε → PlayerId → Status) : Prop where
  accept_ok : ∀ id e, (S.acceptPlayerSession id e).1 = true ↔ status e id = .reserved
  accept_true : ∀ id e, status e id = .reserved →
    status (S.acceptPlayerSession id e).2 = Function.update (status e) id .active
  accept_false : ∀ id e, status e id ≠ .reserved →
    status (S.acceptPlayerSession id e).2 = status e
  remove_ok : ∀ id e, (S.removePlayerSession id e).1 = true ↔ status e id = .active
  remove_true : ∀ id e, status e id = .active →
    status (S.removePlayerSession id e).2 = Function.update (status e) id .completed
  remove_false : ∀ id e, status e id ≠ .active →
    status (S.removePlayerSession id e).2 = status e
  activate : ∀ e, status (S.activateGameSession e) = status e
  terminate : ∀ e, status (S.terminateGameSession e) = status e
  ending : ∀ e, status (S.processEnding e) = status e

def activeIds {ε : Type} (status : ε → PlayerId → Status) (e : ε) : Set PlayerId :=
  {id | status e id = .active}

namespace Lawful

variable {ε : Type} {S : Sdk ε} {status : ε → PlayerId → Status}

theorem activeIds_accept (h : Lawful S status) (id : PlayerId) (e : ε) :
    activeIds status (S.acceptPlayerSession id e).2 =
      if (S.acceptPlayerSession id e).1 then insert id (activeIds status e)
      else activeIds status e := by
  by_cases hr : status e id = .reserved
  · rw [if_pos ((h.accept_ok id e).mpr hr)]
    ext x
    simp only [activeIds, Set.mem_ofPred_eq, h.accept_true id e hr, Set.mem_insert_iff]
    by_cases hx : x = id
    · subst hx
      simp
    · simp [hx]
  · rw [if_neg (by rwa [h.accept_ok id e])]
    simp only [activeIds, h.accept_false id e hr]

theorem activeIds_remove (h : Lawful S status) (id : PlayerId) (e : ε) :
    activeIds status (S.removePlayerSession id e).2 =
      if (S.removePlayerSession id e).1 then activeIds status e \ {id}
      else activeIds status e := by
  by_cases ha : status e id = .active
  · rw [if_pos ((h.remove_ok id e).mpr ha)]
    ext x
    simp only [activeIds, Set.mem_ofPred_eq, h.remove_true id e ha, Set.mem_sdiff,
      Set.mem_singleton_iff]
    by_cases hx : x = id
    · subst hx
      simp
    · simp [hx]
  · rw [if_neg (by rwa [h.remove_ok id e])]
    simp only [activeIds, h.remove_false id e ha]

theorem activeIds_end (h : Lawful S status) (m : GameLiftManager) (e : ε) :
    activeIds status (GameLiftManager.endGame S m e).2 = activeIds status e := by
  simp only [activeIds, GameLiftManager.endGame, h.ending, h.terminate]

theorem activeIds_check (h : Lawful S status) (m : GameLiftManager) (e : ε) :
    activeIds status (GameLiftManager.checkTerminateGameSession S m e).2 = activeIds status e := by
  rw [GameLiftManager.checkTerminateGameSession]
  split_ifs
  · exact h.activeIds_end m e
  · rfl

theorem activeIds_removePlayerSession (h : Lawful S status) (psess : SessionId) (id : PlayerId)
    (m : GameLiftManager) (e : ε) :
    activeIds status (m.removePlayerSession S psess id e).2 =
      if (S.removePlayerSession id e).1 then activeIds status e \ {id}
      else activeIds status e := by
  rw [← h.activeIds_remove id e]
  exact h.activeIds_check _ _

end Lawful

/-- The two counters of a manager differ by the number of active ids. -/
structure Counted {ε : Type} (status : ε → PlayerId → Status) (accepted removed : Int) (e : ε) :
    Prop where
  finite : (activeIds status e).Finite
  diff : accepted - removed = (activeIds status e).ncard

namespace Counted

variable {ε : Type} {S : Sdk ε} {status : ε → PlayerId → Status} {accepted removed : Int} {e : ε}

theorem accept (h : Counted status accepted removed e) (hS : Lawful S status) (id : PlayerId) :
    Counted status (accepted + if (S.acceptPlayerSession id e).1 then 1 else 0) removed
      (S.acceptPlayerSession id e).2 := by
  have ha := hS.activeIds_accept id e
  by_cases hok : (S.acceptPlayerSession id e).1 = true
  · have hres := (hS.accept_ok id e).mp hok
    have hnot : id ∉ activeIds status e := by simp [activeIds, hres]
    rw [if_pos hok] at ha
    refine ⟨ha ▸ h.finite.insert id, ?_⟩
    have hd := h.diff
    rw [ha, Set.ncard_insert_of_notMem hnot h.finite, if_pos hok]
    omega
  · rw [if_neg hok] at ha
    refine ⟨ha ▸ h.finite, ?_⟩
    rw [ha, if_neg hok, Int.add_zero]
    exact h.diff

theorem remove (h : Counted status accepted removed e) (hS : Lawful S status) (id : PlayerId) :
    Counted status accepted (removed + if (S.removePlayerSession id e).1 then 1 else 0)
      (S.removePlayerSession id e).2 := by
  have ha := hS.activeIds_remove id e
  by_cases hok : (S.removePlayerSession id e).1 = true
  · have hact : id ∈ activeIds status e := (hS.remove_ok id e).mp hok
    rw [if_pos hok] at ha
    refine ⟨ha ▸ h.finite.sdiff, ?_⟩
    have hd := h.diff
    have hcard := Set.ncard_sdiff_singleton_add_one hact h.finite
    rw [ha, if_pos hok]
    omega
  · rw [if_neg hok] at ha
    refine ⟨ha ▸ h.finite, ?_⟩
    rw [ha, if_neg hok, Int.add_zero]
    exact h.diff

theorem of_eq (h : Counted status accepted removed e) {e' : ε}
    (he : activeIds status e' = activeIds status e) : Counted status accepted removed e' :=
  ⟨he ▸ h.finite, by rw [he]; exact h.diff⟩

theorem removed_le (h : Counted status accepted removed e) : removed ≤ accepted := by
  have hd := h.diff
  omega

theorem empty_iff (h : Counted status accepted removed e) :
    activeIds status e = ∅ ↔ accepted = removed := by
  have hd := h.diff
  rw [← Set.ncard_eq_zero h.finite]
  omega

end Counted

end GameLift

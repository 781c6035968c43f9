import Kgd.Daemon.Calls
import Kgd.Spec.EngineSteps

/-!
# What handlers and `drain` reply

## Key results

- `Engine.answers_handle`: a handler replies once to a request, and to nothing else
- `Engine.drainAnswer_kind`: `drain` has a reply for every request
-/

namespace Kgd

namespace Engine

/-- The replies of two lists one after the other. -/
theorem answers_append (out out' : List Action) :
    answers (out ++ out') = answers out ++ answers out' :=
  List.filterMap_append

/-- Where nothing is replied there are no replies. -/
theorem answers_eq_nil {out : List Action} (h : ∀ r, Action.reply r ∉ out) : answers out = [] := by
  refine List.filterMap_eq_nil_iff.mpr fun a ha => ?_
  cases a with
  | reply r => exact absurd ha (h r)
  | gfx | notifyClient | notifyAll | stop => rfl

theorem noReply_deleteRendered (e : Engine) (p : Placement) (r : Reply) :
    Action.reply r ∉ e.deleteRendered p := by
  unfold deleteRendered
  split
  · exact noReply_gfxCalls e _ r
  · exact nofun

theorem noReply_removeOwned (env : Env) (e : Engine) (c : ClientID) (r : Reply) :
    Action.reply r ∉ (e.removeOwned env c).2 := by
  intro h
  obtain ⟨k, p, -, hp⟩ := (GoMap.mem_rangeUpdate_snd _ _ _ _).mp h
  split at hp
  · exact noReply_deleteRendered e p r hp
  · exact nomatch hp

theorem noReply_recomputePlacements (env : Env) (e : Engine) (r : Reply) :
    Action.reply r ∉ (e.recomputePlacements env).2 := by
  intro h
  simp only [recomputePlacements, List.mem_append] at h
  rcases h with (h | h) | h
  · exact noReply_gfxCalls e _ r h
  -- between the brackets there are calls and notifications
  · obtain ⟨k, p, -, hp⟩ := (GoMap.mem_rangeUpdate_snd _ _ _ _).mp h
    simp only [recomputeOne] at hp
    split at hp
    · cases hp
    · simp only [List.mem_append, List.mem_map, reduceCtorEq, and_false, exists_false,
        false_or] at hp
      split at hp <;> simp at hp
  · exact noReply_gfxCalls e _ r h

/-- An upload has one reply, of its kind. -/
theorem answers_handleUpload {hash128 : Data → Hash} {env : Env} {e e' : Engine} {c : ClientID}
    {params : UploadParams} {out : List Action}
    (h : e.handleUpload hash128 env c params = some (e', out)) :
    ∃ r, answers out = [⟨.upload, r⟩] := by
  cases imageStep_handleUpload h with
  | quiet hupload => exact absurd rfl (hupload c params)
  | hit => exact ⟨_, rfl⟩
  | refused => exact ⟨_, rfl⟩
  | @miss _ _ e₁ evicted handle _ _ hevict _ =>
    -- the eviction answers nobody
    have hout : answers evicted = [] := answers_eq_nil fun r hr => by
      rw [show evicted = _ from (congrArg Prod.snd hevict).symm] at hr
      exact noReply_freeEvicted env _ _ r hr
    rw [answers_append, answers_append, answers_eq_nil (noReply_gfxCalls e _), hout]
    exact ⟨_, rfl⟩

theorem answers_handlePlace (env : Env) (e : Engine) (c : ClientID) (params : PlaceParams) :
    ∃ r, answers (e.handlePlace env c params).2 = [⟨.place, r⟩] := by
  simp only [handlePlace]
  split
  · exact ⟨_, rfl⟩
  · split
    · exact ⟨_, rfl⟩
    · rw [answers_append]
      split
      · rw [answers_eq_nil (noReply_gfxCalls e _)]
        exact ⟨_, rfl⟩
      · exact ⟨_, rfl⟩

theorem noReply_handleUnplace (e : Engine) (c : ClientID) (pid : UInt32) (r : Reply) :
    Action.reply r ∉ (e.handleUnplace c pid).2 := by
  unfold handleUnplace
  split
  · exact nofun
  · split
    · exact nofun
    · exact noReply_deleteRendered e _ r

theorem noReply_handleFree (e : Engine) (c : ClientID) (handle : UInt32) (r : Reply) :
    Action.reply r ∉ (e.handleFree c handle).2 := by
  unfold handleFree
  split
  · exact nofun
  · split <;> exact nofun

theorem noReply_handleScrollUpdate (env : Env) (e : Engine) (winID scrollTop : Int64) (r : Reply) :
    Action.reply r ∉ (e.handleScrollUpdate env winID scrollTop).2 := by
  unfold handleScrollUpdate
  split
  · exact nofun
  · exact noReply_recomputePlacements env _ r

theorem noReply_handleStop (e : Engine) (r : Reply) : Action.reply r ∉ e.handleStop.2 := by
  unfold handleStop
  split <;> simp

/-- An event without a `Reply` channel gets no reply. -/
theorem noReply_handle {hash128 : Data → Hash} {env : Env} {e e' : Engine} {ev : Event}
    {out : List Action} (h : e.handle hash128 env ev = some (e', out)) (hev : ev.replyKind? = none)
    (r : Reply) : Action.reply r ∉ out := by
  -- in every case but an upload the output can be read off
  have hout : (e.handle hash128 env ev).map Prod.snd = some out := by rw [h]; rfl
  cases ev with
  | helloRequest | placeRequest | uploadRequest | listRequest | statusRequest => exact nomatch hev
  | unplaceRequest c pid => cases hout; exact noReply_handleUnplace e c pid r
  | freeRequest c handle => cases hout; exact noReply_handleFree e c handle r
  | scrollUpdate c winID scrollTop =>
    cases hout
    exact noReply_handleScrollUpdate env e winID scrollTop r
  | stopRequest => cases hout; exact noReply_handleStop e r
  | unplaceAllRequest c | clientDisconnect c => cases hout; exact noReply_removeOwned env e c r
  | registerWin | unregisterWin | updatePanes =>
    cases hout
    exact noReply_recomputePlacements env _ r

/-- A handler replies once to a request, with a value of the request's kind, and to nothing
    else. -/
theorem answers_handle {hash128 : Data → Hash} {env : Env} {e e' : Engine} {ev : Event}
    {out : List Action} (h : e.handle hash128 env ev = some (e', out)) :
    (answers out).map Sigma.fst = ev.replyKind?.toList := by
  -- in every case but an upload the output can be read off
  have hout : (e.handle hash128 env ev).map Prod.snd = some out := by rw [h]; rfl
  cases ev with
  | helloRequest | listRequest | statusRequest => cases hout; rfl
  | placeRequest c params =>
    obtain ⟨r, hr⟩ := answers_handlePlace env e c params
    cases hout
    rw [hr]
    rfl
  | uploadRequest c params =>
    obtain ⟨r, hr⟩ := answers_handleUpload h
    rw [hr]
    rfl
  | unplaceRequest | unplaceAllRequest | freeRequest | scrollUpdate | registerWin
  | unregisterWin | updatePanes | clientDisconnect | stopRequest =>
    rw [answers_eq_nil (noReply_handle h rfl)]
    rfl

/-- The switch in `drain` has a case for every request. -/
theorem drainAnswer_kind (ev : Event) : ev.drainAnswer.map Sigma.fst = ev.replyKind? := by
  cases ev <;> rfl

end Engine

end Kgd

import UserIam.UserIDM.PropertyRequest

/-!
# How an enrolment starts

`AddCredentialCtrl` and `UpdateCredentialCtrl` when they run alone: either the client hears that
nothing starts, or the schedule is written into the open session and given to CoAuth.
-/

namespace UserIam.UserIDM

open Conc Machine

variable {platform : Platform} {t : Nat} {s s' : UserIDMState} {es : List SyncEvent}
  {type : CoAuthType} {callback : ClientCallback}

/-- What such a call shows and leaves: everything before the refusal, or before the schedule is
written, is unnoticed. -/
inductive EnrolmentStart (platform : Platform) (t : Nat) (type : CoAuthType)
    (callback : ClientCallback) (s : UserIDMState) : List SyncEvent → UserIDMState → Prop where
  | refused {before : List SyncEvent} (hbefore : Unnoticed before) (result : ResultCode) :
      EnrolmentStart platform t type callback s
        (before ++ [.op t (.idm (.onResult callback result 0)) ()]) s
  | started {before es : List SyncEvent} {s' : UserIDMState} {info : CoAuth.ScheduleInfo}
      {authInfo : CoAuth.AuthInfo} (hbefore : Unnoticed before) (inserted : Bool)
      (hopen : s.data.challenge ≠ 0)
      (hbegin : (sync platform).Alone t
        (syncBeginSchedule info authInfo
          ⟨type, s.data.challenge, info.scheduleId, some callback⟩)
        { s with data := { s.data with scheduleId := info.scheduleId } } () es s') :
      EnrolmentStart platform t type callback s
        (before ++ .op t (.idm (.insertScheduleId info.scheduleId)) inserted :: es) s'

theorem EnrolmentStart.prepend {before : List SyncEvent} (hbefore : Unnoticed before)
    (h : EnrolmentStart platform t type callback s es s') :
    EnrolmentStart platform t type callback s (before ++ es) s' := by
  cases h with
  | refused hbefore' result =>
    rw [← List.append_assoc]
    exact .refused (hbefore.append hbefore') result
  | started hbefore' inserted hopen hbegin =>
    rw [← List.append_assoc]
    exact .started (hbefore.append hbefore') inserted hopen hbegin

theorem alone_startEnrolment {authInfo : CoAuth.AuthInfo} {credInfo : AddCredInfo}
    {userId : Int32} {r : ResultCode}
    (h : (sync platform).Alone t
      (synchronous (startEnrolment type authInfo credInfo userId callback)) s r es s') :
    EnrolmentStart platform t type callback s es s' := by
  -- All three refusals report once and leave the state alone.
  have hrefused {result b : ResultCode} {es : List SyncEvent} {s' : UserIDMState}
      (h : (sync platform).Alone t
        (synchronous (.call (.onResult callback result 0) fun _ => .ret b)) s r es s') :
      EnrolmentStart platform t type callback s es s' := by
    obtain ⟨-, rfl, rfl⟩ := alone_report h
    exact .refused unnoticed_nil result
  obtain ⟨es₁, hsession, rfl⟩ := h.call_eq s.data.checkChallenge s fun _ => rfl
  apply EnrolmentStart.prepend (unnoticed_singleton rfl _)
  cases hchallenge : s.data.checkChallenge with
  | none =>
    rw [hchallenge] at hsession
    exact hrefused hsession
  | some challenge =>
    rw [hchallenge] at hsession
    obtain ⟨rfl, hopen⟩ := UserIDMModule.checkChallenge_eq_some.mp hchallenge
    obtain ⟨es₂, hslot, rfl⟩ := hsession.call_eq s.data.checkScheduleIdIsActive s fun _ => rfl
    apply EnrolmentStart.prepend (unnoticed_singleton rfl _)
    cases hactive : s.data.checkScheduleIdIsActive with
    | some sessionId =>
      rw [hactive] at hslot
      exact hrefused hslot
    | none =>
      rw [hactive] at hslot
      dsimp only [Prog.bind] at hslot
      rw [Prog.interp_bind] at hslot
      obtain ⟨schedule, s₁, es₃, es₄, hinit, hbegin, rfl⟩ := alone_bind.mp hslot
      obtain ⟨rfl, hbefore⟩ := alone_unnoticed (initSchedule_unnoticed _ _ _) hinit
      apply EnrolmentStart.prepend hbefore
      cases schedule with
      | error ret => exact hrefused hbegin
      | ok info =>
        -- the only write of the session, right before the schedule begins
        obtain ⟨inserted, es₅, hschedule, rfl⟩ := hbegin.call_state _ fun _ => rfl
        dsimp only [Prog.bind] at hschedule
        rw [Prog.interp_bind, Prog.interp_op] at hschedule
        obtain ⟨_, s₂, es₆, es₇, hrun, hret, rfl⟩ := alone_bind.mp hschedule
        obtain ⟨-, rfl, rfl⟩ := alone_ret.mp hret
        rw [List.append_nil]
        exact EnrolmentStart.started unnoticed_nil inserted hopen hrun

end UserIam.UserIDM

import UserIam.CoAuth.AttributesRoundTrip
import UserIam.CoAuth.ExecutorMessengerIpc
import UserIam.CoAuth.FinishSuccess
import UserIam.Executors.AsyncCommand

/-!
# The way of a token

From the answer of the driver, through the command, the codec and the two processes, to the callback
of the schedule.
-/

namespace UserIam.Executors

open Conc Machine CoAuth Ipc

/-! ## 1. What a command reports -/

section Codec

open AuthAttributes

variable (result : ResultCode) (extraInfo : List UInt8)

def resultCalls : List SetCall :=
  [⟨.uint32Type, authResultCode, result.toUInt32⟩, ⟨.uint8ArrayType, authResult, extraInfo⟩]

theorem resultAttributes_eq :
    resultAttributes result extraInfo = new.setAll (resultCalls result extraInfo) := rfl

theorem resultAttributes_filled : (resultAttributes result extraInfo).Filled := by
  rw [resultAttributes_eq]
  exact new_filled.setAll _

theorem resultAttributes_exist :
    (resultAttributes result extraInfo).existAttributes = [authResultCode, authResult] := rfl

theorem resultAttributes_authResult :
    (resultAttributes result extraInfo).valueMap .uint8ArrayType authResult = some extraInfo := rfl

theorem resultAttributes_packedSize :
    (resultAttributes result extraInfo).packedSize = 44 + extraInfo.length := by
  have honce : SetOnce (resultCalls result extraInfo) := of_decide_eq_true rfl
  rw [resultAttributes_eq, honce.packedSize_eq]
  simp [resultCalls, SetCall.length_record, SetCall.payload]
  omega

/-- The token that the service takes out of the result, for any way of packing and unpacking it. -/
theorem finishToken_unpacked {locals : PackLocals} {buffer : List UInt8} {a b : AuthAttributes}
    {r : UnpackResult} (hsize : extraInfo.length < 2 ^ 31)
    (hpack : (resultAttributes result extraInfo).Packs locals buffer a)
    (hunpack : new.Unpacks buffer r) (hobject : r.object = some b) :
    finishToken result b = if result = .success then extraInfo else [] := by
  have hpacked : (resultAttributes result extraInfo).packedSize < 2 ^ 32 := by
    rw [resultAttributes_packedSize]
    omega
  obtain ⟨b', hthis, hvalues⟩ := hpack.unpacks (resultAttributes_filled _ _) hpacked
  obtain rfl := hunpack.unique hthis
  cases hobject
  have hvalue := hvalues .uint8ArrayType authResult
  rw [resultAttributes_authResult, Option.any_some] at hvalue
  have htoken : (b.getUint8ArrayValue authResult []).2 = extraInfo := by
    rw [getUint8ArrayValue, getValue, hvalue]
    cases extraInfo with
    | nil => rfl -- an empty token has not been stored
    | cons => rfl
  rw [finishToken, htoken]

theorem exists_fuel (locals : PackLocals) (hsize : extraInfo.length < 2 ^ 31) :
    ∃ fuel buffer a b, (resultAttributes result extraInfo).pack fuel locals = some (buffer, a) ∧
      new.unpack fuel buffer = some (.this b) := by
  have hpacked : (resultAttributes result extraInfo).packedSize < 2 ^ 32 := by
    rw [resultAttributes_packedSize]
    omega
  have hlength : (resultAttributes result extraInfo).existAttributes.length < 2 ^ 32 := by
    rw [resultAttributes_exist]
    decide
  have hfilled := resultAttributes_filled result extraInfo
  obtain ⟨header, -, hpack⟩ := pack_eq hfilled hpacked hlength locals
  obtain ⟨buffer, a, fuel, hfuel⟩ := (packs_iff_length hfilled hpacked locals).mpr hlength
  obtain ⟨b, ⟨fuel', hfuel'⟩, -⟩ := Packs.unpacks hfilled hpacked ⟨fuel, hfuel⟩
  refine ⟨fuel + fuel', buffer, a, b, ?_, ?_⟩
  · rw [hpack] at hfuel ⊢
    split at hfuel
    · rw [if_pos (by omega)]
      exact hfuel
    · cases hfuel
  · rw [Nat.add_comm]
    exact unpack_add hfuel' fuel

end Codec

/-! ## 2. What the command asks of the messenger -/

structure FinishRequest where
  scheduleId : UInt64
  srcType : Int32
  resultCode : ResultCode
  finalResult : AuthAttributes

/-- A call of the messenger's `Finish` and what it has returned. -/
def finishRequest : ExecutorEvent → Option (FinishRequest × ResultCode)
  | .op _ (.finish _ scheduleId srcType resultCode finalResult) ret =>
    some (⟨scheduleId, srcType, resultCode, finalResult⟩, ret)
  | _ => none

def resultRequest (c : AsyncCommand) (result : ResultCode) (extraInfo : List UInt8) :
    FinishRequest :=
  ⟨c.scheduleId, allInOne, result, resultAttributes result extraInfo⟩

/-- Of the messenger's `Finish` only this call is made. -/
def Asks (request : FinishRequest) : ExecutorOp → Prop
  | .finish _ scheduleId srcType resultCode finalResult =>
    FinishRequest.mk scheduleId srcType resultCode finalResult = request
  | _ => True

def ExecutorOp.isFinish : ExecutorOp → Bool
  | .finish .. => true
  | _ => false

section Report

variable {c : AsyncCommand} {result : ResultCode} {extraInfo : List UInt8} {u : Nat}
  {x x' : ExecutorState} {xs : List ExecutorEvent}

theorem finishRequests_eq_nil (h : ∀ t o r, .op t o r ∈ xs → o.isFinish = false) :
    xs.filterMap finishRequest = [] := by
  apply List.filterMap_eq_nil_iff.mpr
  intro e he
  cases e with
  | spawn => rfl
  | op t o r =>
    have hquiet := h t o r he
    cases o <;> first | rfl | cases hquiet

/-- The end of `OnResult` makes no request. -/
theorem endProcess_quiet : (endProcess c).All fun o => o.isFinish = false := by
  refine ⟨rfl, fun found => ?_⟩
  cases found with
  | false => trivial
  | true => exact ⟨rfl, fun _ => ⟨rfl, fun _ => ⟨rfl, fun _ => ⟨rfl, fun _ => trivial⟩⟩⟩⟩

theorem asks_of_quiet {request : FinishRequest} {o : ExecutorOp} (h : o.isFinish = false) :
    Asks request o := by
  cases o <;> trivial

theorem onResultInner_eq (hschedule : c.type = .auth ∨ c.type = .enroll) :
    onResultInner c result extraInfo = finishSchedule c result extraInfo := by
  rcases hschedule with htype | htype <;> rw [onResultInner, htype]

theorem messengerFinish_asks {finalResult : AuthAttributes} :
    (messengerFinish c result finalResult).All
      (Asks ⟨c.scheduleId, allInOne, result, finalResult⟩) := by
  refine ⟨trivial, fun messenger => ?_⟩
  cases messenger with
  | false => trivial
  | true => exact ⟨rfl, fun _ => ⟨trivial, fun _ => trivial⟩⟩

theorem finishSchedule_asks :
    (finishSchedule c result extraInfo).All (Asks (resultRequest c result extraInfo)) := by
  refine ⟨trivial, fun shared => ?_⟩
  cases shared with
  | false => trivial
  | true =>
    show (messengerFinish c result (resultAttributes result extraInfo) >>= _).All _
    exact messengerFinish_asks.bind fun _ => trivial

theorem onResult_asks (hschedule : c.type = .auth ∨ c.type = .enroll) :
    (onResult c result extraInfo).All (Asks (resultRequest c result extraInfo)) := by
  refine ⟨trivial, fun _ => ⟨trivial, fun finished => ?_⟩⟩
  cases finished with
  | true => exact ⟨trivial, fun _ => trivial⟩
  | false =>
    refine ⟨trivial, fun _ => ?_⟩
    show (onResultInner c result extraInfo >>= _).All _
    rw [onResultInner_eq hschedule]
    have hprocess : (endProcess c).All (Asks (resultRequest c result extraInfo)) :=
      endProcess_quiet.mono fun o h => asks_of_quiet h
    exact finishSchedule_asks.bind fun _ => hprocess.bind fun _ => ⟨trivial, fun _ => trivial⟩

theorem finishRequests_messengerFinish {finalResult : AuthAttributes} {ret : ResultCode}
    (h : executor.Alone u (messengerFinish c result finalResult) x ret xs x') :
    (xs.filterMap finishRequest = [] ∧ (x.command c).any (·.executorMessenger) = false) ∨
      ∃ ret', xs.filterMap finishRequest =
        [(⟨c.scheduleId, allInOne, result, finalResult⟩, ret')] := by
  obtain ⟨env, es₁, -, hrest, rfl⟩ := alone_op_bind.mp h
  split at hrest
  · next hnone =>
    obtain ⟨-, rfl, rfl⟩ := alone_ret.mp hrest
    have hget : (executor.handle u (.getExecutorMessenger c) env x').1 = false := by
      simpa using hnone
    exact .inl ⟨rfl, hget⟩
  · obtain ⟨env₁, es₂, -, hlast, rfl⟩ := alone_op_bind.mp hrest
    obtain ⟨env₂, es₃, -, hend, rfl⟩ := alone_op_bind.mp hlast
    obtain ⟨-, rfl, rfl⟩ := alone_ret.mp hend
    exact .inr ⟨_, rfl⟩

/-- With a messenger and without a failed allocation the request is made. -/
theorem finishRequests_finishSchedule
    (h : executor.Alone u (finishSchedule c result extraInfo) x () xs x') :
    (xs.filterMap finishRequest = [] ∧
      ((x.command c).any (·.executorMessenger) = true → .op u .makeShared false ∈ xs)) ∨
      ∃ ret, xs.filterMap finishRequest = [(resultRequest c result extraInfo, ret)] := by
  obtain ⟨env, es₁, -, hrest, rfl⟩ := alone_op_bind.mp h
  split at hrest
  · next hnull =>
    obtain ⟨-, rfl, rfl⟩ := alone_ret.mp hrest
    have hfailed : (executor.handle u .makeShared env x').1 = false := by simpa using hnull
    rw [hfailed]
    exact .inl ⟨rfl, fun _ => List.mem_singleton_self _⟩
  · obtain ⟨_, x₁, es₂, es₃, hmessenger, hend, rfl⟩ := alone_bind.mp hrest
    obtain ⟨-, rfl, rfl⟩ := alone_ret.mp hend
    have hhead : finishRequest (.op u .makeShared (executor.handle u .makeShared env x).1) =
      none := rfl
    rw [List.append_nil, List.filterMap_cons_none hhead]
    rcases finishRequests_messengerFinish hmessenger with ⟨hnil, hnone⟩ | hsome
    · refine .inl ⟨hnil, fun hmessenger => ?_⟩
      exact absurd hmessenger (by rw [show (x.command c).any _ = false from hnone]; decide)
    · exact .inr hsome

/-- The command is open and can still reach the messenger. -/
def CommandState.canFinish (command : CommandState) : Bool :=
  !command.isFinished && command.executorMessenger

/-- An answer makes at most one request, and it makes one if the command was open and no allocation
fails. -/
theorem finishRequests_onResult (hschedule : c.type = .auth ∨ c.type = .enroll)
    (h : executor.Alone u (onResult c result extraInfo) x () xs x') :
    (xs.filterMap finishRequest = [] ∧
      ((x.command c).any (·.canFinish) = true → .op u .makeShared false ∈ xs)) ∨
      ∃ ret, xs.filterMap finishRequest = [(resultRequest c result extraInfo, ret)] := by
  obtain ⟨env, es₁, -, hopen, rfl⟩ := alone_op_bind.mp h
  obtain ⟨env₁, es₂, -, hrest, rfl⟩ := alone_op_bind.mp hopen
  split at hrest
  -- a second result is dropped
  · next hfinished =>
    obtain ⟨env₂, es₃, -, hend, rfl⟩ := alone_call.mp hrest
    obtain ⟨-, rfl, rfl⟩ := alone_ret.mp hend
    refine .inl ⟨rfl, fun hopen => ?_⟩
    have hfinished : (x.command c).any (·.isFinished) = true := hfinished
    cases hcommand : x.command c with
    | none => simp [hcommand] at hfinished
    | some command => simp_all [CommandState.canFinish]
  · obtain ⟨env₂, es₃, -, hbody, rfl⟩ := alone_op_bind.mp hrest
    rw [onResultInner_eq hschedule] at hbody
    obtain ⟨_, x₁, es₄, es₅, hreport, htail, rfl⟩ := alone_bind.mp hbody
    obtain ⟨_, x₂, es₆, es₇, hprocess, hunlock, rfl⟩ := alone_bind.mp htail
    obtain ⟨env₃, es₈, -, hend, rfl⟩ := alone_call.mp hunlock
    obtain ⟨-, rfl, rfl⟩ := alone_ret.mp hend
    have hnil : es₆.filterMap finishRequest = [] :=
      finishRequests_eq_nil fun t o r hop => hprocess.ops endProcess_quiet hop
    -- only the middle of the answer asks
    have hsame :
        (es₄ ++ (es₆ ++ [Event.op u (ExecutorOp.unlock (.command c)) ()])).filterMap
          finishRequest = es₄.filterMap finishRequest := by
      rw [List.filterMap_append, List.filterMap_append, hnil]
      exact List.append_nil _
    have hrequests := finishRequests_finishSchedule hreport
    rw [← hsame] at hrequests
    rcases hrequests with ⟨hnil', hclosed⟩ | hsome
    · refine .inl ⟨hnil', fun hopen => ?_⟩
      have hmessenger :
          (Function.update x.command c ((x.command c).map ({ · with isFinished := true })) c).any
            (·.executorMessenger) = true := by
        obtain ⟨command, hcommand, hcan⟩ := (Option.any_eq_true _ _).mp hopen
        simp only [CommandState.canFinish, Bool.and_eq_true] at hcan
        rw [Function.update_self, hcommand, Option.map_some]
        exact hcan.2
      have hfailed := hclosed hmessenger
      simp [hfailed]
    · exact .inr hsome

end Report

/-! ## 3. What the service tells the callback -/

/-- What the callback of the schedule is told. -/
def toldOf (S : UInt64) : CoAuthEvent → Option (CoAuthCallback × UInt32 × List UInt8)
  | .op _ (.onFinish id callback resultCode scheduleToken) _ =>
    if id = S then some (callback, resultCode, scheduleToken) else none
  | _ => none

def told (S : UInt64) (es : List CoAuthEvent) : List (CoAuthCallback × UInt32 × List UInt8) :=
  es.filterMap (toldOf S)

/-- Of `OnFinish` only this call is made. -/
def Tells (S : UInt64) (code : UInt32) (token : List UInt8) : CoAuthOp → Prop
  | .onFinish id _ resultCode scheduleToken => id = S ∧ resultCode = code ∧ scheduleToken = token
  | _ => True

/-- The schedule is in the pool with one executor. -/
def OneExecutor (s : CoAuthState) (S : UInt64) (callback : CoAuthCallback) : Prop :=
  ∃ register, s.pool.scheResPool S = some register ∧ register.executorNum = 1 ∧
    register.callback = some callback

section Service

variable {service : CoAuthService} {S : UInt64} {t : Nat} {s s' : CoAuthState}
  {es : List CoAuthEvent} {ret : ResultCode}

theorem monitorRemoveCall_tells {code : UInt32} {token : List UInt8} :
    (monitorRemoveCall service S).All (Tells S code token) := by
  unfold monitorRemoveCall
  split
  · exact ⟨trivial, fun _ => trivial⟩
  · trivial

theorem finish_tells {resultCode : ResultCode} {finalResult : AuthAttributes} :
    (finish service S resultCode (some finalResult)).All
      (Tells S resultCode.toUInt32 (finishToken resultCode finalResult)) := by
  unfold finish
  split
  · trivial
  · refine ⟨trivial, fun scheCount => ?_⟩
    show Prog.All _ (if scheCount > 1 then _ else _)
    split
    · exact ⟨trivial, fun _ => trivial⟩
    · refine monitorRemoveCall_tells.bind fun _ => ⟨trivial, fun found => ?_⟩
      obtain ⟨findRet, callback⟩ := found
      cases callback with
      | none => trivial
      | some callback =>
        show Prog.All _ (if findRet ≠ .success then _ else _)
        split
        · trivial
        · exact ⟨⟨rfl, rfl, rfl⟩, fun _ => ⟨trivial, fun _ => trivial⟩⟩

/-- A schedule with one executor is told the code of the call and the token of its result. -/
theorem told_finish {resultCode : ResultCode} {finalResult : AuthAttributes}
    {callback : CoAuthCallback} (hservice : service.scheResPool = true)
    (hpool : OneExecutor s S callback)
    (h : (coAuth service).Alone t (finish service S resultCode (some finalResult)) s ret es s') :
    told S es = [(callback, resultCode.toUInt32, finishToken resultCode finalResult)] := by
  obtain ⟨register, hregister, hone, hcallback⟩ := hpool
  have hlast : ¬register.executorNum > 1 := by
    rw [hone]
    decide
  obtain ⟨s₁, es₁, es₂, hregister₁, hops, hend, rfl⟩ :=
    alone_finish_last hservice hregister hlast h
  obtain ⟨-, found, deleted, rfl⟩ := alone_finishLast_events hregister₁ hcallback hend
  have hquiet : es₁.filterMap (toldOf S) = [] := by
    apply List.filterMap_eq_nil_iff.mpr
    intro e he
    cases e with
    | spawn => rfl
    | op t' o r => rcases hops t' o r he with rfl | rfl <;> rfl
  have htold : toldOf S (.op t (.onFinish S callback (finishAnswer resultCode (some finalResult)).1
      (finishAnswer resultCode (some finalResult)).2) ()) =
      some (callback, resultCode.toUInt32, finishToken resultCode finalResult) := if_pos rfl
  rw [told, List.filterMap_append, hquiet, List.nil_append, List.filterMap_cons_none rfl,
    List.filterMap_cons_some htold]
  rfl

end Service

/-! ## 4. From end to end -/

/-- The service carries out what the messenger of an executor asks for, one request after the
other, and gives the answers that the executor gets.  What the proxy's variables contain is open. -/
inductive Serves {P : Type} (ipc : Ipc P) (service : CoAuthService) (t : Nat) :
    List (FinishRequest × ResultCode) → CoAuthState → List CoAuthEvent → CoAuthState → Prop where
  | nil (s : CoAuthState) : Serves ipc service t [] s [] s
  | cons {request : FinishRequest} {ret : ResultCode} {p : CoAuthProg ResultCode}
      {requests : List (FinishRequest × ResultCode)} {es es' : List CoAuthEvent}
      {s s₁ s' : CoAuthState} (fuel : Nat) (locals : AuthAttributes.PackLocals)
      (hcall : proxyFinish fuel locals ipc service request.scheduleId request.srcType
        request.resultCode (some request.finalResult) = some p)
      (hrun : (coAuth service).Alone t p s ret es s₁)
      (hrest : Serves ipc service t requests s₁ es' s') :
      Serves ipc service t ((request, ret) :: requests) s (es ++ es') s'

section EndToEnd

variable {P : Type} {ipc : Ipc P} {service : CoAuthService} {t : Nat} {s s' : CoAuthState}
  {es : List CoAuthEvent} {contents : P → List (ParcelApi.Item ParcelKind ParcelKind.Carrier)}
  {c : AsyncCommand} {result : ResultCode} {extraInfo : List UInt8} {callback : CoAuthCallback}

/-- One request is lost on the way, or the callback is told the result and the token. -/
theorem Serves.request (hparcel : ipc.parcel.Lawful contents)
    (hservice : service.scheResPool = true) (hsize : extraInfo.length < 2 ^ 31)
    (hpool : OneExecutor s c.scheduleId callback) {ret : ResultCode}
    (h : Serves ipc service t [(resultRequest c result extraInfo, ret)] s es s') :
    es = [] ∧ ¬(ipc.parcel.Accepts ∧ ipc.delivers = true) ∨
      told c.scheduleId es =
        [(callback, result.toUInt32, if result = .success then extraInfo else [])] := by
  cases h with
  | cons fuel locals hcall hrun hrest =>
    cases hrest
    rcases proxyFinish_cases hparcel hcall with ⟨ret', rfl, hlost⟩ |
      ⟨buffer, a, r, b, k, hpack, hunpack, hobject, rfl⟩
    · obtain ⟨-, rfl, rfl⟩ := alone_ret.mp hrun
      exact .inl ⟨rfl, hlost⟩
    · obtain ⟨ret', s₁, es₁, es₂, hfinish, hend, rfl⟩ := alone_bind.mp hrun
      obtain ⟨-, rfl, rfl⟩ := alone_ret.mp hend
      have htoken := finishToken_unpacked result extraInfo hsize hpack hunpack hobject
      have htold := told_finish hservice hpool hfinish
      rw [List.append_nil, List.append_nil]
      refine .inr (htold.trans ?_)
      show [(callback, result.toUInt32, finishToken result b)] = _
      rw [htoken]

/-- **The token arrives.**  In every interleaving the command asks for no other `Finish`, and that
`Finish` tells no callback anything but the reported result and, for a success, the reported token
byte for byte.  The call of the messenger returns.  When no allocation fails and nothing is lost, an
open command tells the callback of a schedule with one executor once. -/
theorem token_arrives (hparcel : ipc.parcel.Lawful contents) (hservice : service.scheResPool = true)
    (hschedule : c.type = .auth ∨ c.type = .enroll) (hsize : extraInfo.length < 2 ^ 31)
    (hpool : OneExecutor s c.scheduleId callback) :
    (onResult c result extraInfo).All (Asks (resultRequest c result extraInfo)) ∧
    (∀ locals fuel p, proxyFinish fuel locals ipc service c.scheduleId allInOne result
      (some (resultAttributes result extraInfo)) = some p →
        p.All (Tells c.scheduleId result.toUInt32 (if result = .success then extraInfo else []))) ∧
    (∀ locals, ∃ fuel p, proxyFinish fuel locals ipc service c.scheduleId allInOne result
      (some (resultAttributes result extraInfo)) = some p) ∧
    ∀ u x xs x', executor.Alone u (onResult c result extraInfo) x () xs x' →
      ∀ t es s', Serves ipc service t (xs.filterMap finishRequest) s es s' →
        (es ≠ [] → told c.scheduleId es =
          [(callback, result.toUInt32, if result = .success then extraInfo else [])]) ∧
        ((x.command c).any (·.canFinish) = true → .op u .makeShared false ∉ xs →
          ipc.parcel.Accepts → ipc.delivers = true → told c.scheduleId es =
            [(callback, result.toUInt32, if result = .success then extraInfo else [])]) := by
  refine ⟨onResult_asks hschedule, fun locals fuel p hcall => ?_, ?_, ?_⟩
  · rcases proxyFinish_cases hparcel hcall with ⟨ret, rfl, -⟩ |
      ⟨buffer, a, r, b, k, hpack, hunpack, hobject, rfl⟩
    · trivial
    -- What the stub unpacks has the token that the driver has reported.
    · rw [← finishToken_unpacked result extraInfo hsize hpack hunpack hobject]
      exact finish_tells.bind fun _ => trivial
  · intro locals
    obtain ⟨fuel, buffer, a, b, hpack, hunpack⟩ :=
      exists_fuel result extraInfo locals hsize
    obtain ⟨p, hp⟩ := proxyFinish_returns hparcel hpack hunpack rfl
    exact ⟨fuel, p, hp⟩
  · intro u x xs x' hreport t es s' hserves
    rcases finishRequests_onResult hschedule hreport with ⟨hnil, hfailed⟩ | ⟨ret, hone⟩
    · rw [hnil] at hserves
      cases hserves
      exact ⟨fun hne => absurd rfl hne, fun hopen hshared _ _ => absurd (hfailed hopen) hshared⟩
    · rw [hone] at hserves
      rcases hserves.request hparcel hservice hsize hpool with ⟨rfl, hlost⟩ | htold
      · exact ⟨fun hne => absurd rfl hne, fun _ _ haccepts hdelivers =>
          absurd ⟨haccepts, hdelivers⟩ hlost⟩
      · exact ⟨fun _ => htold, fun _ _ _ _ => htold⟩

end EndToEnd

/-! ### A token of three bytes, and a failure -/

def authAnswered : AsyncCommand := ⟨1, .auth, 7⟩

def enrollAnswered : AsyncCommand := ⟨1, .enroll, 7⟩

def listIpc : Ipc (List (ParcelApi.Item ParcelKind ParcelKind.Carrier)) :=
  ⟨ParcelApi.ofList, fun _ _ reply => (.fail, reply), true⟩

/-- The state of the executor while the driver works on the command. -/
def driverAtWork (c : AsyncCommand) : ExecutorState :=
  { ExecutorState.initial with
    command2Respond := [c]
    command := Function.update (fun _ => none) c (some ⟨true, false, 1, true, false, none⟩) }

def oneExecutor : CoAuthState :=
  CoAuthState.initial.inserted 7 ⟨7, [⟨1, .pin, []⟩], 0, 0, 0⟩ 9

/-- No allocation fails with this event. -/
def makes : ExecutorEvent → Bool
  | .op _ .makeShared shared => shared
  | _ => true

/-- The messenger's answers to the requests of a command that the driver has answered, and whether
every allocation has worked. -/
def answered (c : AsyncCommand) (result : ResultCode) (extraInfo : List UInt8) :
    Option (List ResultCode × Bool) :=
  (executor.alone 0 (onResult c result extraInfo) (driverAtWork c) (List.replicate 13 {})).map
    fun r => ((r.2.1.filterMap finishRequest).map (·.2), r.2.1.all makes)

/-- What the service answers to such a request. -/
def served (c : AsyncCommand) (result : ResultCode) (extraInfo : List UInt8) : Option ResultCode :=
  (proxyFinish 10 ⟨false, 0, 0⟩ listIpc ⟨true, true, true⟩ c.scheduleId allInOne result
    (some (resultAttributes result extraInfo))).bind fun p =>
      ((coAuth ⟨true, true, true⟩).alone 0 p oneExecutor (List.replicate 5 {})).map (·.1)

theorem exists_serves {c : AsyncCommand} {result : ResultCode} {extraInfo : List UInt8}
    (hschedule : c.type = .auth ∨ c.type = .enroll)
    (hanswered : answered c result extraInfo = some ([.success], true))
    (hserved : served c result extraInfo = some .success) :
    ∃ xs x' es s', executor.Alone 0 (onResult c result extraInfo) (driverAtWork c) () xs x' ∧
      .op 0 .makeShared false ∉ xs ∧
      Serves listIpc ⟨true, true, true⟩ 0 (xs.filterMap finishRequest) oneExecutor es s' := by
  obtain ⟨⟨⟨⟩, xs, x'⟩, hrun, hrets⟩ := Option.map_eq_some_iff.mp hanswered
  obtain ⟨p, hp, hserved⟩ := Option.bind_eq_some_iff.mp hserved
  obtain ⟨⟨ret, es, s'⟩, hserve, rfl⟩ := Option.map_eq_some_iff.mp hserved
  obtain ⟨hrets, hmakes⟩ := Prod.mk.inj hrets
  have hrequests : xs.filterMap finishRequest = [(resultRequest c result extraInfo, .success)] := by
    rcases finishRequests_onResult hschedule (.of_alone hrun) with ⟨hnil, -⟩ | ⟨ret, hone⟩
    · rw [hnil] at hrets
      cases hrets
    · rw [hone] at hrets
      obtain rfl : ret = .success := (List.cons.inj hrets).1
      exact hone
  refine ⟨xs, x', es ++ [], s', .of_alone hrun, fun hfailed => ?_, ?_⟩
  · cases List.all_eq_true.mp hmakes _ hfailed
  · rw [hrequests]
    exact .cons 10 ⟨false, 0, 0⟩ hp (.of_alone hserve) (.nil s')

/-- The schedule's callback is told the token of an authentication, and the failure of an
enrolment. -/
theorem token_arrives_example :
    (∃ xs x' es s', executor.Alone 0 (onResult authAnswered .success [1, 2, 3])
        (driverAtWork authAnswered) () xs x' ∧
      Serves listIpc ⟨true, true, true⟩ 0 (xs.filterMap finishRequest) oneExecutor es s' ∧
      told 7 es = [(9, ResultCode.success.toUInt32, [1, 2, 3])]) ∧
    ∃ xs x' es s', executor.Alone 0 (onResult enrollAnswered .fail [4])
        (driverAtWork enrollAnswered) () xs x' ∧
      Serves listIpc ⟨true, true, true⟩ 0 (xs.filterMap finishRequest) oneExecutor es s' ∧
      told 7 es = [(9, ResultCode.fail.toUInt32, [])] := by
  have hparcel : listIpc.parcel.Lawful fun p => p := ParcelApi.ofList_lawful
  have hpool : OneExecutor oneExecutor 7 9 :=
    ⟨⟨1, ⟨7, [⟨1, .pin, []⟩], 0, 0, 0⟩, some 9⟩, rfl, rfl, rfl⟩
  constructor
  · have hanswered : answered authAnswered .success [1, 2, 3] = some ([.success], true) := by
      decide +kernel
    have hserved : served authAnswered .success [1, 2, 3] = some .success := by decide +kernel
    obtain ⟨xs, x', es, s', hrun, hmakes, hserves⟩ := exists_serves (.inl rfl) hanswered hserved
    refine ⟨xs, x', es, s', hrun, hserves, ?_⟩
    exact ((token_arrives hparcel rfl (.inl rfl) (by decide) hpool).2.2.2 0 _ xs x' hrun 0 _ s'
      hserves).2 rfl hmakes ParcelApi.ofList_accepts rfl
  · have hanswered : answered enrollAnswered .fail [4] = some ([.success], true) := by
      decide +kernel
    have hserved : served enrollAnswered .fail [4] = some .success := by decide +kernel
    obtain ⟨xs, x', es, s', hrun, hmakes, hserves⟩ := exists_serves (.inr rfl) hanswered hserved
    refine ⟨xs, x', es, s', hrun, hserves, ?_⟩
    exact ((token_arrives hparcel rfl (.inr rfl) (by decide) hpool).2.2.2 0 _ xs x' hrun 0 _ s'
      hserves).2 rfl hmakes ParcelApi.ofList_accepts rfl

end UserIam.Executors

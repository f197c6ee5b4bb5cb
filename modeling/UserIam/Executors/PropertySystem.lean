import UserIam.Executors.TemplateFreeze
import UserIam.UserAuth.PropertyService
import UserIam.UserAuth.UserAuthNative

/-!
# A property request as a whole

From the client's library through the authentication service, the credential manager and CoAuth to
an executor, and back to the client's callback.
-/

namespace UserIam.Executors

open Conc CoAuth
open UserAuth (UserAuthOp UserAuthRes UserAuthProg ClientCallback ExecutorProperty AuthResult
  GetPropertyRequest WireSetPropertyRequest PropertyServiceOp PropertyServiceRes
  PropertyServiceProg WireIpc WireItem IUserAuth IUserAuthCallback UserAuthAsyncStub NativeCalls)

/-! ## 1. One program -/

/-- What is left to the surroundings: those of the services, what the authentication service asks
others, and the client's process. -/
inductive SystemOp where
  | freeze (o : FreezeOp)
  | service (o : PropertyServiceOp)
  | setSurfaceId (request : WireSetPropertyRequest)
  | onAcquireInfo (callback : ClientCallback) (acquireModule : Int32) (acquireInfo : UInt32)
      (extraInfo : Int32)
  | onResult (callback : ClientCallback) (result : ResultCode) (extraInfo : AuthResult)
  | onGetProperty (callback : ClientCallback) (result : ExecutorProperty)
  | onSetProperty (callback : ClientCallback) (result : ResultCode)

@[reducible] def SystemRes : SystemOp → Type
  | .freeze o => FreezeRes o
  | .service o => PropertyServiceRes o
  | .setSurfaceId _ => ResultCode
  | .onAcquireInfo .. | .onResult .. | .onGetProperty .. | .onSetProperty .. => Unit

abbrev SystemProg := Prog SystemOp SystemRes
abbrev SystemStep := (o : SystemOp) × SystemRes o

def onFreeze {α : Type} (p : FreezeProg α) : SystemProg α :=
  p.interp fun o => Prog.op (SystemOp.freeze o)

/-- How the connection between the client and the service behaves while one request is served: is
there a service to connect to, and what becomes of the request and of the call of the callback. -/
structure Connection (P : Type) where
  wire : WireIpc P
  proxy : Bool
  request : Ipc.Delivery
  callback : Ipc.Delivery

/-- There is a service, and no message gets lost. -/
def Connection.faithful {P : Type} (wire : WireIpc P) : Connection P :=
  ⟨wire, true, .answered, .answered⟩

/-- The client's callbacks of the three kinds. -/
def clientAuthCallback (callback : ClientCallback) :
    UserAuth.UserAuthCallback SystemOp SystemRes where
  onAcquireInfo acquireModule acquireInfo extraInfo :=
    Prog.op (SystemOp.onAcquireInfo callback acquireModule acquireInfo extraInfo)
  onResult result extraInfo := Prog.op (SystemOp.onResult callback result extraInfo)

def clientGetPropCallback (callback : ClientCallback) :
    UserAuth.GetPropCallback SystemOp SystemRes where
  onGetProperty result := Prog.op (SystemOp.onGetProperty callback result)

def clientSetPropCallback (callback : ClientCallback) :
    UserAuth.SetPropCallback SystemOp SystemRes where
  onSetProperty result := Prog.op (SystemOp.onSetProperty callback result)

section System

variable {P P' : Type} (conn : Connection P) (fuel : Nat) (ipc : CoAuth.Ipc P')
  (onMessengerReadyStub : P' → P' → ExecutorCallbackProg (ResultCode × P'))
  (stubOf : ClientCallback → UserAuthAsyncStub SystemOp SystemRes)

/-- A callback as the service sees it. -/
def serviceCallback (callback : ClientCallback) : IUserAuthCallback SystemOp SystemRes :=
  UserAuth.userAuthAsyncProxy conn.wire (stubOf callback).callback conn.callback

/-- `GetExecutorProp` of CoAuth, with a new object for the values. -/
def queryExecutorProp (conditions : AuthAttributes) : FreezeProg (ResultCode × AuthAttributes) := do
  let (locals, _) ← Prog.op FreezeOp.locals
  let (locals', authTypeLocal) ← Prog.op FreezeOp.locals
  let (ret, values) ←
    (relayGet ipc.parcel fuel locals locals' authTypeLocal conditions (some .new)).interp
      (throughProxy fuel ipc onMessengerReadyStub)
  return (ret, values.getD .new)

/-- `UserAuthCallbackImplSetProp` passes the result on. -/
def throughRelay (callback : ClientCallback) : (o : PropertyOp P') → SystemProg (PropertyRes o)
  | .onResult result => (serviceCallback conn stubOf callback).onSetExecutorProperty result.toInt32
  | o => onFreeze (throughProxy fuel ipc onMessengerReadyStub o)

/-- `SetExecutorProp` of CoAuth. -/
def changeExecutorProp (callback : ClientCallback) (conditions : AuthAttributes) :
    SystemProg Unit := do
  let (locals, _) ← onFreeze (Prog.op FreezeOp.locals)
  let (locals', authTypeLocal) ← onFreeze (Prog.op FreezeOp.locals)
  (relaySet ipc.parcel fuel locals locals' authTypeLocal conditions
    (some fun result => Prog.op (PropertyOp.onResult result))).interp
      (throughRelay conn fuel ipc onMessengerReadyStub stubOf callback)

def throughBase : (o : UserAuthOp) → SystemProg (UserAuthRes o)
  | .onResult callback result extraInfo =>
    (serviceCallback conn stubOf callback).onResult result extraInfo
  | .onAcquireInfo callback acquireModule acquireInfo extraInfo =>
    (serviceCallback conn stubOf callback).onAcquireInfo acquireModule acquireInfo extraInfo
  | .getExecutorProp conditions =>
    onFreeze (queryExecutorProp fuel ipc onMessengerReadyStub conditions)
  | o => onFreeze (throughServices fuel ipc onMessengerReadyStub o)

def throughSystem : (o : PropertyServiceOp) → SystemProg (PropertyServiceRes o)
  | .base o => throughBase conn fuel ipc onMessengerReadyStub stubOf o
  | .setExecutorProp callback conditions =>
    changeExecutorProp conn fuel ipc onMessengerReadyStub stubOf callback conditions
  | .onExecutorPropertyInfo callback result =>
    (serviceCallback conn stubOf callback).onExecutorPropertyInfo result
  | .onSetExecutorProperty callback result =>
    (serviceCallback conn stubOf callback).onSetExecutorProperty result
  | o => Prog.op (SystemOp.service o)

variable (kit : AccessTokenKit) (caller : Caller)

/-- The service, with everything that it calls. -/
def systemService : IUserAuth SystemOp SystemRes :=
  (UserAuth.userAuthService kit caller).through
    (throughSystem conn fuel ipc onMessengerReadyStub stubOf)

def clientCalls : NativeCalls SystemOp SystemRes where
  getProxy :=
    pure (if conn.proxy then
      some (UserAuth.userAuthProxy conn.wire conn.request
        (fun callback => (stubOf callback).callback)
        (systemService conn fuel ipc onMessengerReadyStub stubOf kit caller))
    else none)
  setSurfaceId request := Prog.op (SystemOp.setSurfaceId request)
  authCallback := clientAuthCallback
  getPropCallback := clientGetPropCallback
  setPropCallback := clientSetPropCallback

/-- `GetProperty` of the client, for a user or for the one whose account is active. -/
def clientGetProperty (userId : Option Int32) (request : GetPropertyRequest)
    (callback : ClientCallback) : SystemProg Unit :=
  let calls := clientCalls conn fuel ipc onMessengerReadyStub
    (fun callback => .ofGetPropCallback (clientGetPropCallback callback)) kit caller
  userId.elim (UserAuth.nativeGetProperty calls request (some callback)) fun userId =>
    UserAuth.nativeGetPropertyById calls userId request (some callback)

def clientSetProperty (request : WireSetPropertyRequest) (callback : ClientCallback) :
    SystemProg Unit :=
  UserAuth.nativeSetProperty (clientCalls conn fuel ipc onMessengerReadyStub
    (fun callback => .ofSetPropCallback (clientSetPropCallback callback)) kit caller) request
    (some callback)

end System

/-! ## 2. What the client hears -/

/-- The functions of the client's callbacks. -/
def SystemOp.tellsClient : SystemOp → Bool
  | .onAcquireInfo .. | .onResult .. | .onGetProperty .. | .onSetProperty .. => true
  | _ => false

def heard (es : List SystemStep) : List SystemOp := (es.map Sigma.fst).filter SystemOp.tellsClient

/-- The client hears nothing, or one thing. -/
structure HeardOnce (silent : Prop) (es : List SystemStep) (news : SystemOp) : Prop where
  nothing : silent → heard es = []
  once : ¬silent → heard es = [news]

theorem heard_append (es es' : List SystemStep) : heard (es ++ es') = heard es ++ heard es' := by
  rw [heard, List.map_append, List.filter_append]
  rfl

/-- An operation behind the authentication service. -/
def SystemOp.behind : SystemOp → Bool
  | .freeze _ => true
  | _ => false

/-- The program runs behind the authentication service, so the client does not hear of it. -/
abbrev Behind {α : Type} (p : SystemProg α) : Prop := p.All (·.behind = true)

theorem filterMap_of_behind {α β : Type} {f : SystemStep → Option β}
    (hf : ∀ o (r : SystemRes o), o.behind = true → f ⟨o, r⟩ = none) {p : SystemProg α} {a : α}
    {es : List SystemStep} (hp : Behind p) (h : p.Trace a es) : es.filterMap f = [] :=
  List.filterMap_eq_nil_iff.mpr fun e he => hf e.1 e.2 (h.ops hp he)

theorem heard_of_behind {α : Type} {p : SystemProg α} {a : α} {es : List SystemStep}
    (hp : Behind p) (h : p.Trace a es) : heard es = [] := by
  rw [heard, List.filter_eq_nil_iff]
  intro o ho
  obtain ⟨e, he, rfl⟩ := List.mem_map.mp ho
  have hbehind := h.ops hp he
  rcases e with ⟨_ | _ | _ | _ | _ | _ | _, _⟩ <;> first | exact Bool.false_ne_true | cases hbehind

theorem onFreeze_behind {α : Type} (p : FreezeProg α) : Behind (onFreeze p) := by
  induction p with
  | ret a => trivial
  | call o k ih => exact ⟨rfl, ih⟩

/-- The answers of the account service. -/
def accountAnswer : SystemStep → Option (ResultCode × List Int32)
  | ⟨.service .queryActiveOsAccountIds, r⟩ => some r
  | _ => none

def accountAnswers (es : List SystemStep) : List (ResultCode × List Int32) :=
  es.filterMap accountAnswer

theorem accountAnswers_of_behind {α : Type} {p : SystemProg α} {a : α} {es : List SystemStep}
    (hp : Behind p) (h : p.Trace a es) : accountAnswers es = [] := by
  refine filterMap_of_behind (fun o r ho => ?_) hp h
  cases o with
  | freeze => rfl
  | _ => cases ho

section Hears

variable {P P' : Type} {conn : Connection P} {fuel : Nat} {ipc : CoAuth.Ipc P'}
  {onMessengerReadyStub : P' → P' → ExecutorCallbackProg (ResultCode × P')}
  {stubOf : ClientCallback → UserAuthAsyncStub SystemOp SystemRes}
  {contents : P → List WireItem} {callback : ClientCallback} {es : List SystemStep}

/-- The message with the answer does not get through. -/
def Connection.Drops (conn : Connection P) (answer : UserAuth.CallbackCall) : Prop :=
  (conn.wire.parcel.message answer.message).isNone = true ∨ conn.callback = .lost

variable (conn stubOf callback) in
theorem serviceCallback_on (hlawful : conn.wire.parcel.Lawful contents)
    (answer : UserAuth.CallbackCall) :
    (conn.Drops answer ∧ answer.on (serviceCallback conn stubOf callback) = .ret ()) ∨
      ¬conn.Drops answer ∧ answer.on (serviceCallback conn stubOf callback) =
        answer.on (stubOf callback).callback := by
  have heq : answer.on (serviceCallback conn stubOf callback) =
      if (conn.wire.parcel.message answer.message).isNone ∨ conn.callback = .lost then .ret ()
      else answer.on (stubOf callback).callback := by
    rw [← UserAuth.asyncCall_eq hlawful]
    cases answer <;> rfl
  by_cases hdrops : conn.Drops answer
  · exact .inl ⟨hdrops, heq.trans (if_pos hdrops)⟩
  · exact .inr ⟨hdrops, heq.trans (if_neg hdrops)⟩

theorem through_onBase {α : Type} (p : UserAuthProg α) :
    (UserAuth.onBase p).interp (throughSystem conn fuel ipc onMessengerReadyStub stubOf) =
      p.interp (throughBase conn fuel ipc onMessengerReadyStub stubOf) := by
  induction p with
  | ret a => rfl
  | call o k ih =>
    show throughBase conn fuel ipc onMessengerReadyStub stubOf o >>= _ = _ >>= _
    congr 1
    funext r
    exact ih r

variable (conn fuel ipc onMessengerReadyStub stubOf callback) in
theorem getPropAuthInfo_through (userId : Int32) (callerUid : UInt64) (pkgName : List UInt8)
    (request : GetPropertyRequest) :
    (UserAuth.getPropAuthInfo userId callerUid pkgName request callback).interp
        (throughSystem conn fuel ipc onMessengerReadyStub stubOf) =
      onFreeze (throughServices fuel ipc onMessengerReadyStub
        (.getAuthInfoCtrl userId request.authType)) >>= fun r =>
          (UserAuth.onGetInfoGetProp callerUid pkgName request r.2).interp
            (throughBase conn fuel ipc onMessengerReadyStub stubOf) >>= fun report =>
              (serviceCallback conn stubOf callback).onExecutorPropertyInfo report := by
  rw [UserAuth.getPropAuthInfo, Prog.interp_bind, through_onBase, Prog.interp_op]
  congr 1
  funext r
  dsimp only
  rw [Prog.interp_bind, through_onBase]
  congr 1
  funext report
  exact Prog.interp_op _ _

/-- A query asks behind the service, and then tells the client. -/
theorem onGetInfoGetProp_behind (callerUid : UInt64) (pkgName : List UInt8)
    (request : GetPropertyRequest) (credInfos : List UserIDM.CredentialInfo) :
    Behind ((UserAuth.onGetInfoGetProp callerUid pkgName request credInfos).interp
      (throughBase conn fuel ipc onMessengerReadyStub stubOf)) := by
  have hall : (UserAuth.onGetInfoGetProp callerUid pkgName request credInfos).All
      fun o => Behind (throughBase conn fuel ipc onMessengerReadyStub stubOf o) := by
    cases credInfos with
    | nil => trivial
    | cons info rest =>
      refine Prog.All.bind ?_ fun _ => trivial
      exact UserAuth.getExecutorProp_all (fun conditions => onFreeze_behind _) _ _ _ _ _
  exact hall.interp _ fun o ho => ho

/-! ### A request on its way -/

/-- The client never learns what has become of its request: the message is not written, or it
arrives and is refused, or the answer does not get through. -/
def Connection.Silent (conn : Connection P) (request : UserAuth.UserAuthRequest)
    (callback : ClientCallback) (refused : Prop) (answer : UserAuth.CallbackCall) : Prop :=
  conn.proxy = true ∧ ((conn.wire.parcel.message request.message).isNone = true ∨
    conn.request ≠ .lost ∧
      (conn.wire.ifaceCast callback = false ∨ refused ∨ conn.Drops answer))

section Requests

variable {service : IUserAuth SystemOp SystemRes} {request : UserAuth.UserAuthRequest}
  {p : SystemProg Unit} {ρ : Type} {news : ρ → SystemOp} {answer : ρ → UserAuth.CallbackCall}
  {refused : Prop}

theorem heard_op {o : SystemOp} (ho : o.tellsClient = true) (r : SystemRes o) :
    heard [⟨o, r⟩] = [o] := by
  rw [heard, List.map_singleton]
  exact List.filter_cons_of_pos ho

theorem trace_nothing {a : Unit} (h : (Prog.ret () : SystemProg Unit).Trace a es) :
    heard es = [] := by
  obtain ⟨-, rfl⟩ := Prog.trace_ret.mp h
  rfl

/-- A request without a reply is answered once, if what the service does about it answers once. -/
theorem heard_of_post {noserver failed : SystemProg Unit} {first second : ρ}
    (hlawful : conn.wire.parcel.Lawful contents)
    (hserve : request.serve conn.wire service conn.wire.parcel.empty =
      if conn.wire.ifaceCast callback then p >>= fun _ => .ret (.success, conn.wire.parcel.empty)
      else .ret (.fail, conn.wire.parcel.empty))
    (hnoserver : ∀ es, noserver.Trace () es → heard es = [news first])
    (hfailed : ∀ es, failed.Trace () es → heard es = [news second])
    (hserved : p.Trace () es → ∃ report,
      HeardOnce (refused ∨ conn.Drops (answer report)) es (news report))
    (h : (if conn.proxy then UserAuth.userAuthPost conn.wire conn.request service request failed
      else noserver).Trace () es) :
    ∃ report, HeardOnce (conn.Silent request callback refused (answer report)) es (news report) ∧
      (conn.proxy = false → report = first) ∧
      (conn.proxy = true → conn.request = .lost → report = second) := by
  unfold Connection.Silent
  cases hproxy : conn.proxy with
  | false =>
    rw [hproxy, if_neg Bool.false_ne_true] at h
    refine ⟨first, ⟨fun hsilent => ?_, fun _ => hnoserver es h⟩, fun _ => rfl, fun hne => ?_⟩
    · exact absurd hsilent.1 Bool.false_ne_true
    · exact absurd hne Bool.false_ne_true
  | true =>
    rw [hproxy, if_pos rfl] at h
    have htrue : ¬(true = false) := Bool.true_eq_false_eq_False
    -- what the service does when the message arrives
    have harrives : UserAuth.userAuthPost conn.wire conn.request service request failed =
        if (conn.wire.parcel.message request.message).isNone then .ret ()
        else if conn.request = .lost then failed
        else if conn.wire.ifaceCast callback then p else .ret () := by
      cases hcast : conn.wire.ifaceCast callback with
      | true =>
        rw [hcast] at hserve
        exact UserAuth.userAuthPost_eq hserve hlawful
      | false =>
        rw [hcast] at hserve
        exact UserAuth.userAuthPost_eq (p := .ret ()) hserve hlawful
    rw [harrives] at h
    split at h
    · next hwrite =>
      refine ⟨second, ⟨fun _ => trace_nothing h, fun hheard => ?_⟩, fun hne => absurd hne htrue,
        fun _ _ => rfl⟩
      exact absurd ⟨rfl, .inl hwrite⟩ hheard
    · next hwrite =>
      split at h
      · next hlost =>
        refine ⟨second, ⟨fun hsilent => ?_, fun _ => hfailed es h⟩, fun hne => absurd hne htrue,
          fun _ _ => rfl⟩
        exact absurd hlost (hsilent.2.resolve_left hwrite).1
      · next hlost =>
        split at h
        · next hcast =>
          obtain ⟨report, hreport⟩ := hserved h
          have hnocast : ¬conn.wire.ifaceCast callback = false := by
            rw [hcast]
            exact htrue
          refine ⟨report, ⟨fun hsilent => ?_, fun hheard => ?_⟩, fun hne => absurd hne htrue,
            fun _ hlost' => absurd hlost' hlost⟩
          · exact hreport.nothing ((hsilent.2.resolve_left hwrite).2.resolve_left hnocast)
          · exact hreport.once fun hsilent => hheard ⟨rfl, .inr ⟨hlost, .inr hsilent⟩⟩
        · next hcast =>
          refine ⟨second, ⟨fun _ => trace_nothing h, fun hheard => ?_⟩,
            fun hne => absurd hne htrue, fun _ _ => rfl⟩
          exact absurd ⟨rfl, .inr ⟨hlost, .inl (Bool.eq_false_iff.mpr hcast)⟩⟩ hheard

end Requests

/-! ### A query -/

section Query

variable {kit : AccessTokenKit} {caller : Caller} {request : GetPropertyRequest}

/-- The permission is missing, or the account service has no active account. -/
def QueryRefused (kit : AccessTokenKit) (caller : Caller) (es : List SystemStep) : Prop :=
  kit.grants caller UserAuth.accessUserAuthInternalPermission = false ∨
    ∃ r ∈ accountAnswers es, r.1 ≠ .success ∨ r.2 = []

/-- A stub that is not for an authentication drops its results. -/
theorem onResult_dropped (hlawful : conn.wire.parcel.Lawful contents)
    (hstub : (stubOf callback).authCallback = none) (result : ResultCode)
    (extraInfo : AuthResult) :
    (UserAuth.onBase (UserAuth.atomic (.onResult callback result extraInfo))).interp
      (throughSystem conn fuel ipc onMessengerReadyStub stubOf) = .ret () := by
  rw [through_onBase, Prog.interp_op]
  rcases serviceCallback_on conn stubOf callback hlawful
    (.onResult result extraInfo) with ⟨-, h⟩ | ⟨-, h⟩
  · exact h
  · refine h.trans ?_
    show (stubOf callback).authCallback.elim _ _ = _
    rw [hstub]
    rfl

theorem answer_heard (hlawful : conn.wire.parcel.Lawful contents) {answer : UserAuth.CallbackCall}
    {o : SystemOp} (ho : o.tellsClient = true)
    (hon : answer.on (stubOf callback).callback = .call o fun _ => .ret ())
    (h : (answer.on (serviceCallback conn stubOf callback)).Trace () es) :
    accountAnswers es = [] ∧ HeardOnce (conn.Drops answer) es o := by
  rcases serviceCallback_on conn stubOf callback hlawful answer with
    ⟨hdrops, heq⟩ | ⟨hdrops, heq⟩
  · rw [heq] at h
    obtain ⟨-, rfl⟩ := Prog.trace_ret.mp h
    exact ⟨rfl, fun _ => rfl, fun hheard => absurd hdrops hheard⟩
  · rw [heq, hon] at h
    obtain ⟨r, es', hret, rfl⟩ := Prog.trace_call.mp h
    obtain ⟨-, rfl⟩ := Prog.trace_ret.mp hret
    refine ⟨?_, fun hsilent => absurd hsilent hdrops, fun _ => heard_op ho r⟩
    cases o with
    | onAcquireInfo | onResult | onGetProperty | onSetProperty => rfl
    | _ => cases ho

theorem HeardOnce.behind {α : Type} {p : SystemProg α} {a : α} {es₁ es₂ : List SystemStep}
    {silent : Prop} {news : SystemOp} (hp : Behind p) (h : p.Trace a es₁)
    (hheard : HeardOnce silent es₂ news) : HeardOnce silent (es₁ ++ es₂) news where
  nothing hsilent := by rw [heard_append, heard_of_behind hp h, hheard.nothing hsilent]; rfl
  once hsilent := by rw [heard_append, heard_of_behind hp h, hheard.once hsilent]; rfl

theorem getPropAuthInfo_heard (hlawful : conn.wire.parcel.Lawful contents) {userId : Int32}
    {callerUid : UInt64} {pkgName : List UInt8}
    (hstub : stubOf callback = .ofGetPropCallback (clientGetPropCallback callback))
    (h : ((UserAuth.getPropAuthInfo userId callerUid pkgName request callback).interp
      (throughSystem conn fuel ipc onMessengerReadyStub stubOf)).Trace () es) :
    accountAnswers es = [] ∧ ∃ report,
      HeardOnce (conn.Drops (.onExecutorPropertyInfo report)) es
        (.onGetProperty callback report) := by
  rw [getPropAuthInfo_through] at h
  obtain ⟨answer, es₀, es', hcredentials, hasked, rfl⟩ := Prog.trace_bind.mp h
  obtain ⟨report, es₁, es₂, hquery, htell, rfl⟩ := Prog.trace_bind.mp hasked
  have hon : (UserAuth.CallbackCall.onExecutorPropertyInfo report).on (stubOf callback).callback =
      .call (.onGetProperty callback report) fun _ => .ret () := by
    rw [hstub]
    rfl
  have htold := answer_heard hlawful rfl hon htell
  refine ⟨?_, report, (htold.2.behind (onGetInfoGetProp_behind _ _ _ _) hquery).behind
    (onFreeze_behind _) hcredentials⟩
  rw [accountAnswers, List.filterMap_append, List.filterMap_append]
  exact congrArg₂ (· ++ ·) (accountAnswers_of_behind (onFreeze_behind _) hcredentials)
    (congrArg₂ (· ++ ·) (accountAnswers_of_behind (onGetInfoGetProp_behind _ _ _ _) hquery) htold.1)

/-- What the service does about a query that has arrived. -/
theorem serve_query_heard (hlawful : conn.wire.parcel.Lawful contents) (userId : Option Int32)
    (hstub : stubOf callback = .ofGetPropCallback (clientGetPropCallback callback))
    (h : ((userId.elim (UserAuth.getProperty kit caller request callback) fun userId =>
      UserAuth.getPropertyById kit caller userId request callback).interp
        (throughSystem conn fuel ipc onMessengerReadyStub stubOf)).Trace () es) :
    ∃ report, HeardOnce
      (QueryRefused kit caller es ∨ conn.Drops (.onExecutorPropertyInfo report)) es
      (.onGetProperty callback report) := by
  have hnull : (stubOf callback).authCallback = none := by rw [hstub]; rfl
  unfold QueryRefused
  cases hgrants : kit.grants caller UserAuth.accessUserAuthInternalPermission with
  | false =>
    have hdropped : (userId.elim (UserAuth.getProperty kit caller request callback) fun userId =>
        UserAuth.getPropertyById kit caller userId request callback).interp
          (throughSystem conn fuel ipc onMessengerReadyStub stubOf) = .ret () := by
      cases userId <;>
        simp only [Option.elim, UserAuth.getProperty, UserAuth.getPropertyById,
          UserAuth.withPropertyPermission, UserAuth.checkPermission, hgrants, Bool.not_false,
          if_true, onResult_dropped hlawful hnull]
    rw [hdropped] at h
    exact ⟨{}, fun _ => trace_nothing h, fun hheard => absurd (.inl (.inl rfl)) hheard⟩
  | true =>
    have hserve : ∀ serve : UserAuth.PropertyServiceProg Unit,
        UserAuth.withPropertyPermission kit caller callback serve = serve := by
      intro serve
      rw [UserAuth.withPropertyPermission, UserAuth.checkPermission, hgrants]
      rfl
    cases userId with
    | some userId =>
      rw [Option.elim_some, UserAuth.getPropertyById, hserve] at h
      obtain ⟨haccounts, report, hreport⟩ := getPropAuthInfo_heard hlawful hstub h
      refine ⟨report, fun hsilent => hreport.nothing (hsilent.resolve_left ?_), fun hheard =>
        hreport.once fun hdrops => hheard (.inr hdrops)⟩
      rintro (hdenied | ⟨r, hr, -⟩)
      · exact Bool.noConfusion hdenied
      · rw [haccounts] at hr
        cases hr
    | none =>
      rw [Option.elim_none, UserAuth.getProperty, hserve, Prog.interp_bind, Prog.interp_op] at h
      obtain ⟨⟨queryRet, ids⟩, es', hrest, rfl⟩ := Prog.trace_op_bind.mp h
      -- the account service has answered, and nobody asks it again
      let asked : SystemStep := ⟨.service .queryActiveOsAccountIds, (queryRet, ids)⟩
      have hmem : (queryRet, ids) ∈ accountAnswers (asked :: es') := List.mem_cons_self
      have hfails (hbad : queryRet ≠ .success ∨ ids = [])
          (h : (Prog.ret () : SystemProg Unit).Trace () es') :
          ∃ report, HeardOnce (QueryRefused kit caller (asked :: es') ∨
            conn.Drops (.onExecutorPropertyInfo report)) (asked :: es')
              (.onGetProperty callback report) :=
        ⟨{}, fun _ => show heard es' = [] from trace_nothing h,
          fun hheard => absurd (.inl (.inr ⟨_, hmem, hbad⟩)) hheard⟩
      unfold QueryRefused at hfails
      rw [hgrants] at hfails
      dsimp only at hrest
      cases ids with
      | nil =>
        rw [onResult_dropped hlawful hnull] at hrest
        exact hfails (.inr rfl) hrest
      | cons userId rest =>
        dsimp only at hrest
        split at hrest
        · next hret =>
          rw [onResult_dropped hlawful hnull] at hrest
          exact hfails (.inl hret) hrest
        · next hret =>
          obtain ⟨haccounts, report, hreport⟩ := getPropAuthInfo_heard hlawful hstub hrest
          refine ⟨report, fun hsilent => hreport.nothing (hsilent.resolve_left ?_), fun hheard =>
            hreport.once fun hdrops => hheard (.inr hdrops)⟩
          rintro (hdenied | ⟨r, hr, hbad⟩)
          · exact Bool.noConfusion hdenied
          · have hasked : accountAnswers (asked :: es') = [(queryRet, userId :: rest)] := by
              show _ :: accountAnswers es' = _
              rw [haccounts]
            rw [hasked, List.mem_singleton] at hr
            subst hr
            exact hbad.elim hret (List.cons_ne_nil _ _)

variable (conn fuel ipc onMessengerReadyStub stubOf kit caller) in
theorem withProxy_client {α : Type} (noserver : SystemProg α)
    (send : IUserAuth SystemOp SystemRes → SystemProg α) :
    UserAuth.withProxy (clientCalls conn fuel ipc onMessengerReadyStub stubOf kit caller) noserver
      send =
      if conn.proxy then
        send (UserAuth.userAuthProxy conn.wire conn.request
          (fun callback => (stubOf callback).callback)
          (systemService conn fuel ipc onMessengerReadyStub stubOf kit caller))
      else noserver := by
  show (if conn.proxy then some _ else none : Option (IUserAuth SystemOp SystemRes)).elim _ _ = _
  cases conn.proxy <;> rfl

theorem heard_of_op {o : SystemOp} (ho : o.tellsClient = true) {k : SystemRes o → SystemProg Unit}
    (hk : ∀ r, k r = .ret ()) (h : (Prog.call o k).Trace () es) : heard es = [o] := by
  obtain ⟨r, es', hret, rfl⟩ := Prog.trace_call.mp h
  rw [hk] at hret
  obtain ⟨-, rfl⟩ := Prog.trace_ret.mp hret
  exact heard_op ho r

/-- **A query is answered at most once**, and when it is not, one of these is why: the message is
not written, the service refuses it, or the answer does not get through.  Without a service and
with a message that is lost the client gets the code of that. -/
theorem getProperty_heard (hlawful : conn.wire.parcel.Lawful contents) (userId : Option Int32)
    (h : (clientGetProperty conn fuel ipc onMessengerReadyStub kit caller userId request
      callback).Trace () es) :
    ∃ report, HeardOnce (conn.Silent
        (userId.elim (.getProperty request callback) (.getPropertyById · request callback)) callback
        (QueryRefused kit caller es) (.onExecutorPropertyInfo report)) es
        (.onGetProperty callback report) ∧
      (conn.proxy = false → report = { result := UserAuth.eRetNoserver }) ∧
      (conn.proxy = true → conn.request = .lost → report = { result := UserAuth.ipcError }) := by
  cases userId with
  | none =>
    have h : (UserAuth.withProxy (clientCalls conn fuel ipc onMessengerReadyStub _ kit caller) _
      (·.getProperty request callback)).Trace () es := h
    rw [withProxy_client] at h
    refine heard_of_post hlawful rfl (fun es => heard_of_op rfl fun _ => rfl)
      (fun es => heard_of_op rfl fun _ => rfl) (fun h => ?_) h
    exact serve_query_heard hlawful none rfl h
  | some userId =>
    have h : (UserAuth.withProxy (clientCalls conn fuel ipc onMessengerReadyStub _ kit caller) _
      (·.getPropertyById userId request callback)).Trace () es := h
    rw [withProxy_client] at h
    refine heard_of_post hlawful rfl (fun es => heard_of_op rfl fun _ => rfl)
      (fun es => heard_of_op rfl fun _ => rfl) (fun h => ?_) h
    exact serve_query_heard hlawful (some userId) rfl h

/-- The service is there, but the request gets lost. -/
def losingConnection : Connection (List WireItem) := ⟨UserAuth.listIpc, true, .lost, .answered⟩

def strictKit : AccessTokenKit := ⟨fun _ _ => false, fun _ => true, fun _ => (.success, 100)⟩

def lostNews : List SystemStep := [⟨.onGetProperty 7 { result := UserAuth.ipcError }, ()⟩]

theorem getProperty_heard_lost :
    ∃ report, HeardOnce (losingConnection.Silent (.getPropertyById 100 ⟨.face, [1]⟩ 7) 7
        (QueryRefused strictKit ⟨0, 5, 20⟩ lostNews) (.onExecutorPropertyInfo report)) lostNews
        (.onGetProperty 7 report) ∧
      (losingConnection.proxy = false → report = { result := UserAuth.eRetNoserver }) ∧
      (losingConnection.proxy = true → losingConnection.request = .lost →
        report = { result := UserAuth.ipcError }) := by
  have htrace : (clientGetProperty losingConnection 8 faceIpc
      (fun _ reply => .ret (.success, reply)) strictKit ⟨0, 5, 20⟩ (some 100) ⟨.face, [1]⟩
      7).Trace () lostNews := Prog.trace_call.mpr ⟨(), [], .ret (), rfl⟩
  exact getProperty_heard Ipc.CheckedApi.ofList_lawful (some 100) htrace

end Query

/-! ### A change -/

section Change

variable {kit : AccessTokenKit} {caller : Caller} {request : WireSetPropertyRequest}

/-- A question of CoAuth, or a hang. -/
def behindRelay : PropertyOp P' → Prop
  | .onResult _ => False
  | _ => True

theorem throughRelay_behind {o : PropertyOp P'} (ho : behindRelay o) :
    Behind (throughRelay conn fuel ipc onMessengerReadyStub stubOf callback o) := by
  cases o with
  | onResult => cases ho
  | findExecutorCallback | sendRequest | hang => exact onFreeze_behind _

theorem sendProperty_behindRelay (locals : AuthAttributes.PackLocals) (remote : ExecutorCallback)
    (code : UInt32) (properties : AuthAttributes) :
    (sendProperty ipc.parcel fuel locals remote code properties).All behindRelay := by
  unfold sendProperty
  split
  · trivial
  · split
    · exact Prog.All.bind ⟨trivial, fun r => r.elim⟩ fun _ => trivial
    · split
      · trivial
      · exact ⟨trivial, fun _ => trivial⟩

variable (fuel ipc) in
theorem proxyOnSetProperty_behindRelay (locals : AuthAttributes.PackLocals)
    (remote : ExecutorCallback) (properties : AuthAttributes) :
    (proxyOnSetProperty ipc.parcel fuel locals remote (some properties)).All behindRelay := by
  refine (sendProperty_behindRelay locals remote onSetPropertyCode properties).bind fun reply => ?_
  cases reply <;> trivial

/-- CoAuth calls the callback of a change once, if it comes to an end at all. -/
theorem relaySet_heard (hlawful : conn.wire.parcel.Lawful contents)
    (hstub : stubOf callback = .ofSetPropCallback (clientSetPropCallback callback))
    {locals locals' : AuthAttributes.PackLocals} {authTypeLocal : AuthType}
    {conditions : AuthAttributes}
    (h : ((relaySet ipc.parcel fuel locals locals' authTypeLocal conditions
      (some fun result => Prog.op (PropertyOp.onResult result))).interp
        (throughRelay conn fuel ipc onMessengerReadyStub stubOf callback)).Trace () es) :
    ∃ report, HeardOnce (conn.Drops (.onSetExecutorProperty report)) es
      (.onSetProperty callback report) := by
  have htell (result : UInt32) {es : List SystemStep}
      (h : ((serviceCallback conn stubOf callback).onSetExecutorProperty
        result.toInt32).Trace () es) :
      HeardOnce (conn.Drops (.onSetExecutorProperty result.toInt32)) es
        (.onSetProperty callback result.toInt32) := by
    have hon : (UserAuth.CallbackCall.onSetExecutorProperty result.toInt32).on
        (stubOf callback).callback =
          .call (.onSetProperty callback result.toInt32) fun _ => .ret () := by
      rw [hstub]
      rfl
    exact (answer_heard hlawful rfl hon h).2
  unfold relaySet CoAuth.setExecutorProp relayCalls at h
  rw [Prog.interp_bind, Prog.interp_op] at h
  obtain ⟨execallback, es₁, es₂, hfind, hrest, rfl⟩ := Prog.trace_bind.mp h
  have hquiet {o : PropertyOp P'} (ho : behindRelay o) :
      Behind (throughRelay conn fuel ipc onMessengerReadyStub stubOf callback o) :=
    throughRelay_behind ho
  have hask (authType : AuthType) := hquiet (o := .findExecutorCallback authType) trivial
  cases execallback with
  | none =>
    dsimp only at hrest
    rw [Prog.interp_op] at hrest
    exact ⟨_, (htell _ hrest).behind (hask _) hfind⟩
  | some execallback =>
    dsimp only at hrest
    cases hrelayed : relayed fuel locals' conditions with
    | none =>
      -- nothing comes back from a hang
      rw [hrelayed] at hrest
      obtain ⟨r, -⟩ := Prog.trace_call.mp hrest
      exact r.elim
    | some properties =>
      rw [hrelayed] at hrest
      dsimp only at hrest
      rw [Prog.interp_bind] at hrest
      obtain ⟨result, es₃, es₄, hset, hanswer, rfl⟩ := Prog.trace_bind.mp hrest
      rw [Prog.interp_op] at hanswer
      have hsilent := (proxyOnSetProperty_behindRelay fuel ipc locals execallback
        properties).interp (throughRelay conn fuel ipc onMessengerReadyStub stubOf callback)
          fun _ => hquiet
      exact ⟨_, ((htell _ hanswer).behind hsilent hset).behind (hask _) hfind⟩

/-- What the service does about a change that has arrived. -/
theorem serve_change_heard (hlawful : conn.wire.parcel.Lawful contents)
    (hstub : stubOf callback = .ofSetPropCallback (clientSetPropCallback callback))
    (h : ((UserAuth.setProperty kit caller request callback).interp
      (throughSystem conn fuel ipc onMessengerReadyStub stubOf)).Trace () es) :
    ∃ report, HeardOnce (kit.grants caller UserAuth.accessUserAuthInternalPermission = false ∨
      conn.Drops (.onSetExecutorProperty report)) es (.onSetProperty callback report) := by
  have hnull : (stubOf callback).authCallback = none := by rw [hstub]; rfl
  cases hgrants : kit.grants caller UserAuth.accessUserAuthInternalPermission with
  | false =>
    rw [UserAuth.setProperty, UserAuth.withPropertyPermission_denied hgrants,
      onResult_dropped hlawful hnull] at h
    exact ⟨0, fun _ => trace_nothing h, fun hheard => absurd (.inl rfl) hheard⟩
  | true =>
    rw [UserAuth.setProperty_granted hgrants, Prog.interp_op] at h
    obtain ⟨locals, es₁, es₂, hlocals, hrest, rfl⟩ := Prog.trace_bind.mp h
    obtain ⟨locals', es₃, es₄, hlocals', hset, rfl⟩ := Prog.trace_bind.mp hrest
    obtain ⟨report, hreport⟩ := relaySet_heard hlawful hstub hset
    have hasked := (hreport.behind (onFreeze_behind _) hlocals').behind (onFreeze_behind _) hlocals
    refine ⟨report, fun hsilent => hasked.nothing (hsilent.resolve_left Bool.noConfusion),
      fun hheard => hasked.once fun hdrops => hheard (.inr hdrops)⟩

/-- **A change is answered at most once**, and when it is not, one of these is why: the message is
not written, the service refuses it, or the answer does not get through.  A surface is always
answered. -/
theorem setProperty_heard (hlawful : conn.wire.parcel.Lawful contents)
    (h : (clientSetProperty conn fuel ipc onMessengerReadyStub kit caller request
      callback).Trace () es) :
    ∃ report, HeardOnce (request.setsSurface = false ∧
        conn.Silent (.setProperty request callback) callback
          (kit.grants caller UserAuth.accessUserAuthInternalPermission = false)
          (.onSetExecutorProperty report)) es (.onSetProperty callback report) ∧
      (conn.proxy = false → report = UserAuth.eRetNoserver) ∧
      (conn.proxy = true → request.setsSurface = false → conn.request = .lost →
        report = UserAuth.ipcError) := by
  unfold clientSetProperty UserAuth.nativeSetProperty at h
  dsimp only at h
  rw [withProxy_client] at h
  cases hsurface : request.setsSurface with
  | true =>
    rw [hsurface, if_pos rfl] at h
    cases hproxy : conn.proxy with
    | false =>
      rw [hproxy, if_neg Bool.false_ne_true] at h
      refine ⟨_, ⟨fun hsilent => Bool.noConfusion hsilent.1, fun _ =>
        heard_of_op rfl (fun _ => rfl) h⟩, fun _ => rfl, fun hne => Bool.noConfusion hne⟩
    | true =>
      rw [hproxy, if_pos rfl] at h
      obtain ⟨result, es', htell, rfl⟩ := Prog.trace_op_bind.mp h
      have hheard : heard es' = [.onSetProperty callback result] :=
        heard_of_op rfl (fun _ => rfl) htell
      exact ⟨result, ⟨fun hsilent => Bool.noConfusion hsilent.1, fun _ => hheard⟩,
        fun hne => Bool.noConfusion hne, fun _ hne => Bool.noConfusion hne⟩
  | false =>
    rw [hsurface, if_neg Bool.false_ne_true] at h
    obtain ⟨report, hreport, hnoserver, hlost⟩ := heard_of_post hlawful rfl
      (fun es => heard_of_op rfl fun _ => rfl) (fun es => heard_of_op rfl fun _ => rfl)
      (fun h => serve_change_heard hlawful rfl h) h
    exact ⟨report, ⟨fun hsilent => hreport.nothing hsilent.2, fun hheard =>
      hreport.once fun hsilent => hheard ⟨rfl, hsilent⟩⟩, hnoserver, fun hproxy _ => hlost hproxy⟩

/-- The message arrives, but the client has no permission. -/
theorem setProperty_heard_refused :
    ∃ report, HeardOnce ((⟨.face, 1, [5]⟩ : WireSetPropertyRequest).setsSurface = false ∧
        (Connection.faithful UserAuth.listIpc).Silent (.setProperty ⟨.face, 1, [5]⟩ 7) 7
          (strictKit.grants ⟨0, 5, 20⟩ UserAuth.accessUserAuthInternalPermission = false)
          (.onSetExecutorProperty report)) [] (.onSetProperty 7 report) ∧
      ((Connection.faithful UserAuth.listIpc).proxy = false → report = UserAuth.eRetNoserver) ∧
      ((Connection.faithful UserAuth.listIpc).proxy = true →
        (⟨.face, 1, [5]⟩ : WireSetPropertyRequest).setsSurface = false →
        (Connection.faithful UserAuth.listIpc).request = .lost → report = UserAuth.ipcError) := by
  have htrace : (clientSetProperty (Connection.faithful UserAuth.listIpc) 8 faceIpc
      (fun _ reply => .ret (.success, reply)) strictKit ⟨0, 5, 20⟩ ⟨.face, 1, [5]⟩ 7).Trace () [] :=
    Prog.trace_ret.mpr ⟨rfl, rfl⟩
  exact setProperty_heard Ipc.CheckedApi.ofList_lawful htrace

end Change

end Hears

end UserIam.Executors

import UserIam.Conc.Trace
import UserIam.Ipc.Records

/-!
# Remote calls

A caller writes a message, a handler in another process carries it out and fills in a reply.  A
write may fail, the message may get lost, and so may the reply.
-/

namespace Ipc

open Conc

/-! ## 1. Messages -/

namespace ParcelApi

variable {P Kind : Type} {Value : Kind → Type} {api : ParcelApi P Kind Value}
  {contents : P → List (Item Kind Value)}

/-- Writes the values one after the other, up to the first write that fails. -/
def writeAll (api : ParcelApi P Kind Value) : List (Item Kind Value) → P → Option P
  | [], p => some p
  | item :: items, p =>
    match api.write p item.1 item.2 with
    | none => none
    | some p => api.writeAll items p

/-- The parcel of these values. -/
def message (api : ParcelApi P Kind Value) (items : List (Item Kind Value)) : Option P :=
  api.writeAll items api.empty

theorem Lawful.writeAll (h : api.Lawful contents) {items : List (Item Kind Value)} {p p' : P}
    (hp : api.writeAll items p = some p') : contents p' = contents p ++ items := by
  induction items generalizing p with
  | nil =>
    obtain rfl := Option.some.inj hp
    rw [List.append_nil]
  | cons item items ih =>
    rw [ParcelApi.writeAll] at hp
    cases hwrite : api.write p item.1 item.2 with
    | none =>
      rw [hwrite] at hp
      cases hp
    | some p₁ =>
      rw [hwrite] at hp
      rw [ih hp, h.write hwrite, List.append_assoc, List.singleton_append]

theorem Lawful.message (h : api.Lawful contents) {items : List (Item Kind Value)} {p : P}
    (hp : api.message items = some p) : contents p = items := by
  rw [h.writeAll hp, h.empty, List.nil_append]

theorem Accepts.writeAll (h : api.Accepts) (items : List (Item Kind Value)) (p : P) :
    ∃ p', api.writeAll items p = some p' := by
  induction items generalizing p with
  | nil => exact ⟨p, rfl⟩
  | cons item items ih =>
    obtain ⟨p₁, hwrite⟩ := h.write p item.1 item.2
    rw [ParcelApi.writeAll, hwrite]
    exact ih p₁

theorem Accepts.message (h : api.Accepts) (items : List (Item Kind Value)) :
    ∃ p, api.message items = some p :=
  h.writeAll items api.empty

end ParcelApi

/-! ## 2. Requests -/

/-- What becomes of a message. -/
inductive Delivery where
  | lost
  | unanswered
  | answered
  deriving DecidableEq

section Requests

variable {P Kind : Type} {Value : Kind → Type} {Op : Type} {Res : Op → Type} {Status α β : Type}

/-- What a process does with a message: it returns a status and fills in the reply. -/
abbrev Handler (P Status : Type) (Op : Type) (Res : Op → Type) :=
  (data reply : P) → Prog Op Res (Status × P)

/-- The caller waits for the reply, and gets it if the handler has reported success. -/
def request (api : ParcelApi P Kind Value) (delivery : Delivery) (succeeded : Status → Bool)
    (handler : Handler P Status Op Res) (data : P) : Prog Op Res (Option P) :=
  match delivery with
  | .lost => pure none
  | .unanswered => do
    let _ ← handler data api.empty
    pure none
  | .answered => do
    let answer ← handler data api.empty
    pure (if succeeded answer.1 then some answer.2 else none)

/-- The caller goes on when the message has been sent.  It has nothing left to do then, so what the
handler does stands behind it. -/
def post (api : ParcelApi P Kind Value) (delivery : Delivery) (handler : Handler P Status Op Res)
    (data : P) : Prog Op Res Bool :=
  match delivery with
  | .lost => pure false
  | .unanswered | .answered => do
    let _ ← handler data api.empty
    pure true

/-- A function of a proxy: a value for a message that cannot be written, one for a request that has
failed, and what is read from the reply. -/
def remoteCall (api : ParcelApi P Kind Value) (delivery : Delivery) (succeeded : Status → Bool)
    (handler : Handler P Status Op Res) (items : List (ParcelApi.Item Kind Value))
    (unwritten failed : β) (readReply : P → β) : Prog Op Res β :=
  match api.message items with
  | none => pure unwritten
  | some data => do
    let reply ← request api delivery succeeded handler data
    pure (reply.elim failed readReply)

/-- What a caller knows of a request. -/
inductive Answer (α : Type) where
  | unwritten
  | failed
  | replied (a : α)

/-- A function of a proxy that does not wait: a program for a message that cannot be sent. -/
def remotePost (api : ParcelApi P Kind Value) (delivery : Delivery)
    (handler : Handler P Status Op Res) (items : List (ParcelApi.Item Kind Value))
    (failed : Prog Op Res Unit) : Prog Op Res Unit :=
  match api.message items with
  | none => pure ()
  | some data => do
    if !(← post api delivery handler data) then failed

/-! ## 3. What a remote call comes to -/

/-- The program runs `p` once and returns its value or an error, or it does nothing but return an
error. -/
def AtMostOnce (err : α → Prop) (p q : Prog Op Res α) : Prop :=
  (∃ a, err a ∧ q = .ret a) ∨
    ∃ f : α → α, (∀ a, f a = a ∨ err (f a)) ∧ q = p >>= fun a => .ret (f a)

theorem AtMostOnce.trace {err : α → Prop} {p q : Prog Op Res α} (h : AtMostOnce err p q) {a : α}
    {es : List ((o : Op) × Res o)} (hq : q.Trace a es) :
    err a ∧ es = [] ∨ ∃ b, p.Trace b es ∧ (a = b ∨ err a) := by
  rcases h with ⟨b, hb, rfl⟩ | ⟨f, hf, rfl⟩
  · obtain ⟨rfl, rfl⟩ := Prog.trace_ret.mp hq
    exact .inl ⟨hb, rfl⟩
  · obtain ⟨b, es₁, es₂, hp, hret, rfl⟩ := Prog.trace_bind.mp hq
    obtain ⟨rfl, rfl⟩ := Prog.trace_ret.mp hret
    rw [List.append_nil]
    exact .inr ⟨b, hp, hf b⟩

variable {api : ParcelApi P Kind Value} {contents : P → List (ParcelApi.Item Kind Value)}
  {delivery : Delivery} {succeeded : Status → Bool} {handler : Handler P Status Op Res}
  {items : List (ParcelApi.Item Kind Value)} {unwritten failed : β} {readReply : P → β}
  {p : Prog Op Res α} {answer : α → Status × P}

/-- The handler carries the message out by running `p`. -/
def Handles (api : ParcelApi P Kind Value) (contents : P → List (ParcelApi.Item Kind Value))
    (handler : Handler P Status Op Res) (items : List (ParcelApi.Item Kind Value))
    (p : Prog Op Res α) (answer : α → Status × P) : Prop :=
  ∀ data, contents data = items → handler data api.empty = p >>= fun a => .ret (answer a)

/-- What comes back when the message arrives and the reply is not lost. -/
theorem request_answered {data : P}
    (hrun : handler data api.empty = p >>= fun a => .ret (answer a)) :
    (request api .answered succeeded handler data >>= fun reply =>
      pure (reply.elim failed readReply)) =
      p >>= fun a => .ret
        (if succeeded (answer a).1 then readReply (answer a).2 else failed) := by
  rw [request, hrun, Prog.bind_assoc, Prog.bind_assoc]
  congr 1
  funext a
  by_cases hok : succeeded (answer a).1 = true
  · simp only [Prog.pure_eq, Prog.ret_bind, hok, if_true, Option.elim_some]
  · simp only [Prog.pure_eq, Prog.ret_bind, hok, Bool.false_eq_true, if_false, Option.elim_none]

theorem remoteCall_answered (hlawful : api.Lawful contents) (haccepts : api.Accepts)
    (hhandler : Handles api contents handler items p answer) :
    remoteCall api .answered succeeded handler items unwritten failed readReply =
      p >>= fun a => .ret
        (if succeeded (answer a).1 then readReply (answer a).2 else failed) := by
  obtain ⟨data, hdata⟩ := haccepts.message items
  rw [remoteCall, hdata]
  exact request_answered (hhandler data (hlawful.message hdata))

/-- The reply, when there is one, gives back the value of the call. -/
def GivesBack (succeeded : Status → Bool) (answer : α → Status × P) (readReply : P → α) : Prop :=
  ∀ a, succeeded (answer a).1 = true → readReply (answer a).2 = a

/-- **A remote call is transparent** when nothing is lost and no write fails. -/
theorem remoteCall_eq {unwritten failed : α} {readReply : P → α} (hlawful : api.Lawful contents)
    (haccepts : api.Accepts) (hhandler : Handles api contents handler items p answer)
    (hback : GivesBack succeeded answer readReply)
    (hsucceeds : ∀ a, succeeded (answer a).1 = true) :
    remoteCall api .answered succeeded handler items unwritten failed readReply = p := by
  rw [remoteCall_answered hlawful haccepts hhandler]
  have hvalue (a : α) :
      (if succeeded (answer a).1 then readReply (answer a).2 else failed) = a := by
    rw [if_pos (hsucceeds a), hback a (hsucceeds a)]
  simp only [hvalue]
  exact Prog.bind_ret p

/-- A remote call comes to nothing but an error, or the handler runs once and the caller gets the
value of the reply or the error of a request that has failed. -/
theorem remoteCall_cases (hlawful : api.Lawful contents)
    (hhandler : Handles api contents handler items p answer) :
    remoteCall api delivery succeeded handler items unwritten failed readReply = .ret unwritten ∨
      remoteCall api delivery succeeded handler items unwritten failed readReply = .ret failed ∨
      ∃ ok : α → Bool, (∀ a, ok a = true → succeeded (answer a).1 = true) ∧
        remoteCall api delivery succeeded handler items unwritten failed readReply =
          p >>= fun a => .ret (if ok a then readReply (answer a).2 else failed) := by
  rw [remoteCall]
  cases hdata : api.message items with
  | none => exact .inl rfl
  | some data =>
    have hrun := hhandler data (hlawful.message hdata)
    cases delivery with
    | lost => exact .inr (.inl rfl)
    | unanswered =>
      refine .inr (.inr ⟨fun _ => false, fun _ h => absurd h Bool.false_ne_true, ?_⟩)
      dsimp only [request]
      rw [hrun, Prog.bind_assoc, Prog.bind_assoc]
      rfl
    | answered => exact .inr (.inr ⟨_, fun _ h => h, request_answered hrun⟩)

theorem remoteCall_atMostOnce {err : α → Prop} {unwritten failed : α} {readReply : P → α}
    (hlawful : api.Lawful contents) (hhandler : Handles api contents handler items p answer)
    (hback : GivesBack succeeded answer readReply) (hunwritten : err unwritten)
    (hfailed : err failed) :
    AtMostOnce err p
      (remoteCall api delivery succeeded handler items unwritten failed readReply) := by
  rcases remoteCall_cases hlawful hhandler with heq | heq | ⟨ok, hok, heq⟩
  · exact .inl ⟨_, hunwritten, heq⟩
  · exact .inl ⟨_, hfailed, heq⟩
  · refine .inr ⟨_, fun a => ?_, heq⟩
    by_cases ha : ok a = true
    · rw [if_pos ha]
      exact .inl (hback a (hok a ha))
    · rw [if_neg ha]
      exact .inr hfailed

/-- A handler that refuses leaves the caller with an error. -/
theorem remoteCall_refused {err : β → Prop} {status : Status} {reply : P}
    (hlawful : api.Lawful contents)
    (hrefuses : ∀ data, contents data = items → handler data api.empty = .ret (status, reply))
    (hstatus : succeeded status = false) (hunwritten : err unwritten) (hfailed : err failed) :
    ∃ b, err b ∧
      remoteCall api delivery succeeded handler items unwritten failed readReply = .ret b := by
  rw [remoteCall]
  cases hdata : api.message items with
  | none => exact ⟨_, hunwritten, rfl⟩
  | some data =>
    have hrun := hrefuses data (hlawful.message hdata)
    refine ⟨failed, hfailed, ?_⟩
    cases delivery with
    | lost => rfl
    | unanswered =>
      dsimp only [request]
      rw [hrun]
      rfl
    | answered =>
      dsimp only [request]
      rw [hrun, Prog.ret_bind, hstatus]
      rfl

/-- A message that is sent is carried out, and nothing else is done. -/
theorem remotePost_eq {p : Prog Op Res Unit} {answer : Unit → Status × P}
    {failed : Prog Op Res Unit} (hlawful : api.Lawful contents)
    (hhandler : Handles api contents handler items p answer) :
    remotePost api delivery handler items failed =
      if (api.message items).isNone then .ret () else if delivery = .lost then failed else p := by
  rw [remotePost]
  cases hdata : api.message items with
  | none => rfl
  | some data =>
    have hrun := hhandler data (hlawful.message hdata)
    cases delivery with
    | lost => rfl
    | unanswered | answered =>
      dsimp only [post]
      rw [hrun, Prog.bind_assoc, Prog.bind_assoc]
      exact Prog.bind_ret p

/-- What a request without a reply comes to: nothing, a report to the client that it has not been
sent, or what the service does about it. -/
def Posted (failed p q : Prog Op Res Unit) : Prop := q = .ret () ∨ q = failed ∨ q = p

theorem remotePost_posted {p : Prog Op Res Unit} {answer : Unit → Status × P}
    {failed : Prog Op Res Unit} (hlawful : api.Lawful contents)
    (hhandler : Handles api contents handler items p answer) :
    Posted failed p (remotePost api delivery handler items failed) := by
  rw [remotePost_eq hlawful hhandler]
  split
  · exact .inl rfl
  · split
    · exact .inr (.inl rfl)
    · exact .inr (.inr rfl)

/-- A handler that refuses does nothing. -/
theorem Posted.of_ret {failed p q : Prog Op Res Unit} (h : Posted failed (.ret ()) q) :
    Posted failed p q := by
  rcases h with heq | heq | heq
  · exact .inl heq
  · exact .inr (.inl heq)
  · exact .inl heq

end Requests

end Ipc

import Syndicate.Proofs.Adapter.Alike
import Syndicate.Proofs.Adapter.Dummy
import Syndicate.Proofs.Adapter.Requests
import Syndicate.Proofs.Files

/-! Channel adapters in two runs that differ in the token they sign in with, and in what some files
hold. All that comes of an operation is the same in both, and so are the requests, but for the token
in their addresses and for such a file when it is uploaded. -/

namespace Syndicate

open Act (Agree Matches Mirrors)

/-- How far two runs may differ besides in their tokens: in which files, and in what the library for
requests says of each. -/
structure Veil where
  files : List UInt8 → List UInt8 → Prop := fun _ _ => False
  lines : Request → Reply → List String := fun _ _ => []

variable {p : Veil}

/-! ### Requests -/

/-- Two payloads are the same, but for an upload of a file that may differ. -/
inductive Payload.Veiled (p : Veil) : Payload → Payload → Prop
  | same (x : Payload) : Veiled p x x
  | upload {b c : List UInt8} (h : p.files b c) (fields : Entries) (field name : String) :
    Veiled p (.form fields field name (Text.ofBytes b)) (.form fields field name (Text.ofBytes c))

/-- Two requests are the same, or they call one method with a token each. -/
inductive Request.Veiled (p : Veil) : Request → Request → Prop
  | same (r : Request) : Veiled p r r
  | call (k l : String) {method : String} (hmethod : '/' ∉ method.toList) (timeout : Value)
    {x y : Payload} (h : x.Veiled p y) :
    Veiled p ⟨"https://api.telegram.org/bot" ++ k ++ "/" ++ method, timeout, x⟩
      ⟨"https://api.telegram.org/bot" ++ l ++ "/" ++ method, timeout, y⟩

/-! ### Logs -/

/-- Whether a line is not from the library for requests. -/
def Record.isOwn (r : Record) : Bool := r.source ≠ "urllib3.connectionpool"

/-- Two logs are the same line by line, but for what the library for requests wrote of each of two
requests. -/
inductive LogVeiled (p : Veil) : List Record → List Record → Prop
  | nil : LogVeiled p [] []
  | snoc {rs rs' : List Record} (h : LogVeiled p rs rs') (r : Record) :
    LogVeiled p (rs ++ [r]) (rs' ++ [r])
  | sends {rs rs' : List Record} (h : LogVeiled p rs rs') {q q' : Request} (hq : q.Veiled p q')
    (reply : Reply) : LogVeiled p (rs ++ q.remarks p.lines reply) (rs' ++ q'.remarks p.lines reply)

namespace LogVeiled

variable {rs rs' : List Record}

theorem append (h : LogVeiled p rs rs') (cs : List Record) :
    LogVeiled p (rs ++ cs) (rs' ++ cs) := by
  induction cs generalizing rs rs' with
  | nil => simpa using h
  | cons r cs ih => simpa using ih (h.snoc r)

theorem refl (rs : List Record) : LogVeiled p rs rs := LogVeiled.nil.append rs

end LogVeiled

/-- The same was told and the same events were collected. -/
structure Journal.Veiled (p : Veil) (j k : Journal) : Prop where
  sink : k.sink = j.sink
  events : k.events = j.events
  records : LogVeiled p j.records k.records

namespace Journal.Veiled

variable {j k : Journal}

theorem refl (j : Journal) : Journal.Veiled p j j := ⟨rfl, rfl, .refl _⟩

theorem write (h : j.Veiled p k) (r : Record) : (j.write r).Veiled p (k.write r) :=
  ⟨h.sink, h.events, h.records.snoc r⟩

theorem emit (h : j.Veiled p k) (e : Event) : (j.emit e).Veiled p (k.emit e) := by
  unfold Journal.emit
  rw [h.sink]
  cases j.sink with
  | collect => exact ⟨rfl, congrArg (· ++ [e]) h.events, h.records⟩
  | log => exact h.write e.record

end Journal.Veiled

/-! ### Surroundings -/

/-- In two surroundings the same was told and the same replies are to come, and what was sent and
what files hold differs only as far as it may. -/
structure Site.Veiled (p : Veil) (u v : Site) : Prop where
  files : u.files.Veiled p.files v.files
  journal : u.journal.Veiled p v.journal
  replies : v.network.replies = u.network.replies
  lines : u.network.lines = p.lines ∧ v.network.lines = p.lines
  sent : List.Forall₂ (Request.Veiled p) u.network.sent v.network.sent

namespace Site.Veiled

variable {u v : Site}

theorem refl {u : Site} (h : u.network.lines = p.lines) : Site.Veiled p u u :=
  ⟨.refl _, .refl _, rfl, ⟨h, h⟩, List.forall₂_same.2 fun r _ => .same r⟩

theorem write (h : Site.Veiled p u v) (r : Record) :
    Site.Veiled p { u with journal := u.journal.write r } { v with journal := v.journal.write r } :=
  { h with journal := h.journal.write r }

theorem emit (h : Site.Veiled p u v) (e : Event) :
    Site.Veiled p { u with journal := u.journal.emit e } { v with journal := v.journal.emit e } :=
  { h with journal := h.journal.emit e }

theorem log (source : String) (level : Level) (message : String) :
    Mirrors (Site.Veiled p) (Site.log source level message) :=
  Mirrors.modify fun _ _ h => h.write ⟨source, level, message⟩

theorem send {q r : Request} (hr : q.Veiled p r) :
    Matches (Site.Veiled p) (Site.send q) (Site.send r) := by
  intro u v h
  have hnext : v.network.next = u.network.next := by rw [Network.next, Network.next, h.replies]
  rw [Site.outcome_send, Site.outcome_send, h.lines.1, h.lines.2, hnext]
  exact ⟨rfl, h.files, ⟨h.journal.sink, h.journal.events, h.journal.records.sends hr _⟩,
    congrArg List.tail h.replies, h.lines, List.rel_append h.sent (.cons hr .nil)⟩

end Site.Veiled

/-! ### Operations -/

namespace Telegram

/-- An adapter with another token. -/
def withToken (g : Telegram) (k : Value) : Telegram := { g with botToken := k }

theorem readReply_veiled (method : String) (reply : Reply) :
    Mirrors (Site.Veiled p) (readReply method reply) := by
  cases reply with
  | unreachable reason => exact Mirrors.throw _
  | broken fault => exact Mirrors.throw _
  | response status body =>
    simp only [readReply]
    cases Json.parse? body with
    | none => exact Mirrors.throw _
    | some data =>
      refine Mirrors.bind (Mirrors.ofOutcome _) fun es => ?_
      split
      · exact Mirrors.pure _
      · exact Mirrors.bind (Site.Veiled.log _ _ _) fun _ => Mirrors.throw _

variable (g : Telegram) (k : Value)

theorem call_veiled {method : String} (hmethod : '/' ∉ method.toList) {x y : Payload}
    (h : x.Veiled p y) :
    Matches (Site.Veiled p) (g.call method x) ((g.withToken k).call method y) := by
  have htimeout : (g.withToken k).timeoutFor y = g.timeoutFor x := by cases h <;> rfl
  unfold call
  rw [htimeout]
  refine Matches.bind (Mirrors.ofOutcome _) fun timeout => ?_
  exact Matches.bind (Site.Veiled.send (.call _ _ hmethod timeout h)) fun reply =>
    readReply_veiled method reply

theorem call_veiled_same {method : String} (hmethod : '/' ∉ method.toList) (x : Payload) :
    Matches (Site.Veiled p) (g.call method x) ((g.withToken k).call method x) :=
  g.call_veiled k hmethod (.same x)

omit g k in
theorem mediaPayload_veiled {fs gs : Files} (h : fs.Veiled p.files gs) (name : String) (medium : Value)
    (fields : Entries) : Outcome.Rel (Payload.Veiled p) (mediaPayload fs name medium fields)
      (mediaPayload gs name medium fields) := by
  cases medium with
  | text path =>
    unfold mediaPayload
    dsimp only
    split
    · exact .ok (.same _)
    · refine (h.plain? path).bind fun o o' hrel => ?_
      cases hrel with
      | none => exact .ok (.same _)
      | some htwin =>
        rcases htwin with rfl | hp
        · exact .ok (.same _)
        · exact .ok (.upload hp _ _ _)
  | _ => exact .error _

omit g k in
theorem mediaMethod_plain (name : String) : '/' ∉ (mediaMethod name).toList := by
  unfold mediaMethod
  split <;> decide

theorem publish_veiled (c : Content) :
    Matches (Site.Veiled p) (g.publish c) ((g.withToken k).publish c) := by
  unfold publish
  refine Matches.bind (Mirrors.ofOutcome (g.chatOf c)) fun chat => ?_
  cases c.media.find? fun m => m.2.truthy with
  | none =>
    refine Matches.bind (Mirrors.ofOutcome _) fun _ => ?_
    exact Matches.bind (g.call_veiled_same k (by decide) _) fun result =>
      Mirrors.ofOutcome (g.refOf chat result)
  | some m =>
    obtain ⟨name, medium⟩ := m
    refine Matches.bind (Mirrors.ofOutcome _) fun _ => ?_
    have hfields : (g.withToken k).commonFields chat c = g.commonFields chat c := rfl
    rw [hfields]
    refine Matches.bind_get fun u v h => ?_
    have hpayload := mediaPayload_veiled h.files name medium
      (g.commonFields chat c ++ [field "caption" (caption c.text)])
    refine Matches.ofOutcome_bind hpayload (fun x y hxy => ?_) u v h
    exact Matches.bind (g.call_veiled k (mediaMethod_plain name) hxy) fun result =>
      Mirrors.ofOutcome (g.refOf chat result)

end Telegram

/-! ### All adapters -/

/-- Two adapters are the same, but for the tokens of channel adapters. -/
inductive Adapter.Veiled : Adapter → Adapter → Prop
  | same (a : Adapter) : Veiled a a
  | token (g : Telegram) (k : Value) : Veiled (.telegram g) (.telegram (g.withToken k))

namespace Adapter.Veiled

variable {a b : Adapter} (h : a.Veiled b)
include h

theorem id : b.id = a.id := by
  cases h <;> rfl

theorem rest? : b.rest? = a.rest? := by
  cases h <;> rfl

theorem enter : a.enter.Veiled b.enter := by
  cases h with
  | same => exact .same _
  | token g k => exact .token g k

end Adapter.Veiled

structure Station.Veiled (p : Veil) (x y : Station) : Prop where
  adapter : x.adapter.Veiled y.adapter
  site : x.site.Veiled p y.site

namespace Station

variable {α : Type} {u v : Site}

theorem Veiled.same (a : Adapter) (h : u.Veiled p v) : Station.Veiled p ⟨a, u⟩ ⟨a, v⟩ :=
  ⟨.same a, h⟩

theorem Veiled.token (g : Telegram) (k : Value) (h : u.Veiled p v) :
    Station.Veiled p ⟨.telegram g, u⟩ ⟨.telegram (g.withToken k), v⟩ :=
  ⟨.token g k, h⟩

theorem onSite_veiled {x y : Act Site α} (h : Matches (Site.Veiled p) x y) :
    Matches (Station.Veiled p) (onSite x) (onSite y) :=
  Matches.within h (fun _ _ hs => hs.site) fun _ _ hs _ _ hsite => ⟨hs.adapter, hsite⟩

theorem onDummy_veiled (d : Dummy) (x : Act Dummy α) :
    Mirrors (Station.Veiled p) (onDummy d x) := fun s t h => by
  rw [outcome_onDummy, outcome_onDummy]
  exact ⟨rfl, .same _, h.site⟩

theorem onRecorder_veiled (r : Recorder) (x : Act Recorder α) :
    Mirrors (Station.Veiled p) (onRecorder r x) := fun s t h => by
  rw [outcome_onRecorder, outcome_onRecorder]
  exact ⟨rfl, .same _, h.site⟩

/-- An operation comes to the same for both adapters if it does for each kind of them. -/
theorem mirrors_of_kinds {x : Act Station α}
    (hdummy : ∀ d u v, Site.Veiled p u v → Agree (Station.Veiled p)
      (x.outcome ⟨.dummy d, u⟩) (x.outcome ⟨.dummy d, v⟩))
    (htelegram : ∀ (g : Telegram) k u v, Site.Veiled p u v → Agree (Station.Veiled p)
      (x.outcome ⟨.telegram g, u⟩) (x.outcome ⟨.telegram (g.withToken k), v⟩))
    (hrecorder : ∀ r u v, Site.Veiled p u v → Agree (Station.Veiled p)
      (x.outcome ⟨.recorder r, u⟩) (x.outcome ⟨.recorder r, v⟩))
    (hbare : ∀ b u v, Site.Veiled p u v → Agree (Station.Veiled p)
      (x.outcome ⟨.bare b, u⟩) (x.outcome ⟨.bare b, v⟩)) :
    Mirrors (Station.Veiled p) x := by
  rintro ⟨a, u⟩ ⟨b, v⟩ ⟨hadapter, hsite⟩
  cases hadapter with
  | token g k => exact htelegram g k u v hsite
  | same =>
    cases a with
    | dummy d => exact hdummy d u v hsite
    | telegram g => exact htelegram g g.botToken u v hsite
    | recorder r => exact hrecorder r u v hsite
    | bare b => exact hbare b u v hsite

theorem publish_veiled (clock : Nat) (c : Content) :
    Mirrors (Station.Veiled p) (publish clock c) := by
  have hlog : ∀ ref : PostRef, Mirrors (Station.Veiled p) (do
      onSite (Site.log "socials.dummy" .debug ("DummyAdapter stored " ++ ref.id.display))
      pure ref) := fun ref =>
    Mirrors.bind (onSite_veiled (Site.Veiled.log _ _ _)) fun _ => Mirrors.pure ref
  exact mirrors_of_kinds
    (fun d _ _ h => Mirrors.bind (onDummy_veiled d (Dummy.publish c)) hlog _ _ (.same _ h))
    (fun g k _ _ h => onSite_veiled (g.publish_veiled k c) _ _ (.token g k h))
    (fun r _ _ h => onRecorder_veiled r (Recorder.leave clock c) _ _ (.same _ h))
    (fun _ _ _ h => Mirrors.throw _ _ _ (.same _ h))

open Dummy (Yield)

/-- Makes a call for what it gives back. -/
def Call.ask : Call → Act Station Yield
  | verify => do pure (.answer (← Station.verify))
  | publish clock c => do pure (.ref (← Station.publish clock c))
  | update postId c => do pure (.ref (← Station.update postId c))
  | delete postId => do pure (.answer (← Station.delete postId))
  | feedback postId => do pure (.feedback (← Station.feedback postId))
  | reply target text => do pure (.ref (← Station.reply target text))

/-- What calls come to one after the other, whether they fail or not. -/
def answers (s : Station) : List Call → List (Outcome Yield) × Station
  | [] => ([], s)
  | call :: calls =>
    let (result, t) := call.ask.outcome s
    let (rest, u) := t.answers calls
    (result :: rest, u)

end Station

end Syndicate

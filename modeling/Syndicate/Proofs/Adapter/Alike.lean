import Syndicate.Proofs.Adapter

/-! Adapters in two runs that differ in what was sent, written and told before, and in how often an
adapter was verified. None of it makes a difference to a post. -/

namespace Syndicate

open Act (Agree Mirrors)

/-- Two rows have grown by the same, each from a row of its own. -/
def Alongside {α : Type} (a b u v : List α) : Prop := ∃ c, u = a ++ c ∧ v = b ++ c

namespace Alongside

variable {α : Type} {a b u v : List α}

theorem refl (a b : List α) : Alongside a b a b := ⟨[], by simp, by simp⟩

theorem append (h : Alongside a b u v) (c : List α) : Alongside a b (u ++ c) (v ++ c) := by
  obtain ⟨d, rfl, rfl⟩ := h
  exact ⟨d ++ c, by simp, by simp⟩

end Alongside

/-! ### Surroundings -/

/-- Two surroundings have the same files and replies, and have sent, written and told the same since
they were `a` and `b`. -/
structure Site.Alike (a b u v : Site) : Prop where
  files : v.files = u.files
  replies : v.network.replies = u.network.replies
  lines : v.network.lines = u.network.lines
  sink : v.journal.sink = u.journal.sink
  sent : Alongside a.network.sent b.network.sent u.network.sent v.network.sent
  records : Alongside a.journal.records b.journal.records u.journal.records v.journal.records
  events : Alongside a.journal.events b.journal.events u.journal.events v.journal.events

namespace Site.Alike

variable {a b u v : Site}

theorem write (h : Site.Alike a b u v) (r : Record) :
    Site.Alike a b { u with journal := u.journal.write r } { v with journal := v.journal.write r } :=
  ⟨h.files, h.replies, h.lines, h.sink, h.sent, h.records.append [r], h.events⟩

theorem emit (h : Site.Alike a b u v) (e : Event) :
    Site.Alike a b { u with journal := u.journal.emit e } { v with journal := v.journal.emit e } := by
  have hsink := h.sink
  cases hs : u.journal.sink with
  | collect =>
    rw [hs] at hsink
    simp only [Journal.emit, hs, hsink]
    exact ⟨h.files, h.replies, h.lines, rfl, h.sent, h.records, h.events.append [e]⟩
  | log =>
    rw [hs] at hsink
    simp only [Journal.emit, hs, hsink]
    exact h.write e.record

theorem log (source : String) (level : Level) (message : String) :
    Mirrors (Site.Alike a b) (Site.log source level message) :=
  Mirrors.modify fun _ _ h => h.write _

theorem send (r : Request) : Mirrors (Site.Alike a b) (Site.send r) := by
  intro u v h
  have hnext : v.network.next = u.network.next := by rw [Network.next, Network.next, h.replies]
  rw [Site.outcome_send, Site.outcome_send, h.lines, hnext]
  exact ⟨rfl, h.files, congrArg List.tail h.replies, h.lines, h.sink, h.sent.append [r],
    h.records.append _, h.events⟩

end Site.Alike

/-! ### Kinds of adapters -/

namespace Telegram

variable {a b : Site}

theorem readReply_mirrors (method : String) (reply : Reply) :
    Mirrors (Site.Alike a b) (readReply method reply) := by
  cases reply with
  | unreachable reason => exact Mirrors.throw _
  | broken fault => exact Mirrors.throw _
  | response status body =>
    simp only [readReply]
    cases Json.parse? body with
    | none => exact Mirrors.throw _
    | some data =>
      refine Mirrors.bind (Mirrors.ofOutcome _) fun es => ?_
      split
      · exact Mirrors.pure _
      · exact Mirrors.bind (Site.Alike.log _ _ _) fun _ => Mirrors.throw _

theorem call_mirrors (t : Telegram) (method : String) (payload : Payload) :
    Mirrors (Site.Alike a b) (t.call method payload) := by
  refine Mirrors.bind (Mirrors.ofOutcome _) fun timeout => ?_
  exact Mirrors.bind (Site.Alike.send _) fun reply => readReply_mirrors method reply

theorem publish_mirrors (t : Telegram) (c : Content) :
    Mirrors (Site.Alike a b) (t.publish c) := by
  refine Mirrors.bind (Mirrors.ofOutcome _) fun chat => ?_
  split
  · refine Mirrors.bind (Mirrors.ofOutcome _) fun _ => ?_
    refine Mirrors.bind_get fun u v h => ?_
    rw [h.files]
    refine Mirrors.bind (Mirrors.ofOutcome _) (fun payload => ?_) u v h
    exact Mirrors.bind (t.call_mirrors _ _) fun result => Mirrors.ofOutcome _
  · refine Mirrors.bind (Mirrors.ofOutcome _) fun _ => ?_
    exact Mirrors.bind (t.call_mirrors _ _) fun result => Mirrors.ofOutcome _

end Telegram

namespace Recorder

variable (k : Nat)

/-- A recorder with another count of verifications. -/
def withCalls (r : Recorder) : Recorder := { r with verifyCalls := k }

/-- A post does not look at the count of verifications. -/
theorem leave_mirrors (clock : Nat) (c : Content) :
    Mirrors (fun r r' : Recorder => r' = r.withCalls k) (leave clock c) := by
  refine Mirrors.bind (Mirrors.modify fun r r' h => by rw [h]; rfl) fun _ => ?_
  refine Mirrors.bind_get fun r r' h => ?_
  subst h
  show Agree _ ((if r.failOn.any c.text.alike then _ else _ : Act Recorder PostRef).outcome r)
    ((if r.failOn.any c.text.alike then _ else _ : Act Recorder PostRef).outcome (r.withCalls k))
  split
  · exact Mirrors.bind (Mirrors.ofOutcome _) (fun _ => Mirrors.throw _) r (r.withCalls k) rfl
  · rw [Act.outcome_bind_ok (Act.outcome_set _ _), Act.outcome_bind_ok (Act.outcome_set _ _)]
    exact Mirrors.ofOutcome (R := fun r r' : Recorder => r' = r.withCalls k) _ _ _ rfl

theorem verify_calls (r : Recorder) :
    (verify.outcome r).2 = r.withCalls (r.verifyCalls + 1) := by
  obtain ⟨_, verification, _, _, _, _, _, _, _⟩ := r
  cases verification <;> rfl

end Recorder

/-- How often an adapter was verified, as far as it counts. -/
def Adapter.verifyCalls : Adapter → Nat
  | .recorder r => r.verifyCalls
  | _ => 0

/-- An adapter with another count of verifications, if it counts them. -/
def Adapter.withCalls (k : Nat) : Adapter → Adapter
  | .recorder r => .recorder (r.withCalls k)
  | a => a

namespace Adapter

variable (a : Adapter) (k : Nat)

@[simp] theorem id_withCalls : (a.withCalls k).id = a.id := by
  cases a <;> rfl

@[simp] theorem rest?_withCalls : (a.withCalls k).rest? = a.rest? := by
  cases a <;> rfl

@[simp] theorem enter_withCalls : (a.withCalls k).enter = a.enter.withCalls k := by
  cases a <;> rfl

end Adapter

/-! ### All adapters -/

/-- Two adapters that are the same but for the count of verifications, in alike surroundings. -/
structure Station.Alike (k : Nat) (a b : Site) (x y : Station) : Prop where
  adapter : y.adapter = x.adapter.withCalls k
  site : Site.Alike a b x.site y.site

namespace Station

variable {k : Nat} {a b : Site} {α : Type}

theorem onSite_mirrors {x : Act Site α} (h : Mirrors (Site.Alike a b) x) :
    Mirrors (Station.Alike k a b) (onSite x) :=
  Mirrors.within h (fun _ _ hs => hs.site) fun _ _ hs _ _ hsite => ⟨hs.adapter, hsite⟩

theorem publish_mirrors (clock : Nat) (c : Content) :
    Mirrors (Station.Alike k a b) (publish clock c) := by
  refine Mirrors.bind_get fun x y h => ?_
  have hy := h.adapter
  cases hx : x.adapter with
  | dummy d =>
    rw [hx] at hy
    rw [show y.adapter = .dummy d from hy]
    have hmirrors : Mirrors (Station.Alike k a b) (onDummy d (Dummy.publish c)) := fun x y h => by
      rw [outcome_onDummy, outcome_onDummy]
      exact ⟨rfl, rfl, h.site⟩
    refine Mirrors.bind hmirrors (fun ref => ?_) x y h
    exact Mirrors.bind (onSite_mirrors (Site.Alike.log _ _ _)) fun _ => Mirrors.pure ref
  | telegram t =>
    rw [hx] at hy
    rw [show y.adapter = .telegram t from hy]
    exact onSite_mirrors (t.publish_mirrors c) x y h
  | recorder r =>
    rw [hx] at hy
    rw [show y.adapter = .recorder (r.withCalls k) from hy]
    show Agree _ ((onRecorder r (Recorder.leave clock c)).outcome x)
      ((onRecorder (r.withCalls k) (Recorder.leave clock c)).outcome y)
    obtain ⟨ho, hr⟩ := Recorder.leave_mirrors k clock c r (r.withCalls k) rfl
    rw [outcome_onRecorder, outcome_onRecorder]
    exact ⟨ho, congrArg Adapter.recorder hr, h.site⟩
  | bare b =>
    rw [hx] at hy
    rw [show y.adapter = .bare b from hy]
    exact ⟨rfl, h⟩

end Station

end Syndicate

import Syndicate.Adapter
import Syndicate.Proofs.Act

/-! What publishing and verifying leave alone, whatever the adapter: the id of the adapter, and the
events that were told. What a post is known by can always be shown. -/

namespace Syndicate

/-! ### Journals -/

/-- The lines that events have made in a log. -/
def Journal.eventLines (j : Journal) : List Record :=
  j.records.filter fun r => r.source = "core.diagnostics"

/-- Between two states of a journal some events were told, in their order, and no others. -/
structure Journal.Tells (j : Journal) (es : List Event) (j' : Journal) : Prop where
  sink : j'.sink = j.sink
  events : j'.events = j.events ++ if j.sink = .collect then es else []
  lines : j'.eventLines = j.eventLines ++ if j.sink = .log then es.map Event.record else []

namespace Journal.Tells

variable {j j' j'' : Journal} {es es' : List Event}

theorem refl (j : Journal) : j.Tells [] j := by
  refine ⟨rfl, ?_, ?_⟩ <;> split <;> simp

theorem trans (h : j.Tells es j') (h' : j'.Tells es' j'') : j.Tells (es ++ es') j'' := by
  refine ⟨h'.sink.trans h.sink, ?_, ?_⟩
  · rw [h'.events, h.events, h.sink]
    split <;> simp
  · rw [h'.lines, h.lines, h.sink]
    split <;> simp

theorem emit (j : Journal) (e : Event) : j.Tells [e] (j.emit e) := by
  cases hs : j.sink with
  | collect => refine ⟨?_, ?_, ?_⟩ <;> simp [Journal.emit, hs, eventLines]
  | log => refine ⟨?_, ?_, ?_⟩ <;> simp [Journal.emit, Journal.write, hs, eventLines, Event.record]

theorem write (j : Journal) {r : Record} (h : r.source ≠ "core.diagnostics") :
    j.Tells [] (j.write r) := by
  refine ⟨rfl, ?_, ?_⟩
  · simp [Journal.write]
  · simp [Journal.write, eventLines, h]

theorem writeAll (j : Journal) {rs : List Record} (h : ∀ r ∈ rs, r.source ≠ "core.diagnostics") :
    j.Tells [] (j.writeAll rs) := by
  refine ⟨rfl, ?_, ?_⟩
  · simp [Journal.writeAll]
  · simpa [Journal.writeAll, eventLines] using h

end Journal.Tells

/-! ### Sending -/

/-- The reply to the next request. -/
def Network.next (n : Network) : Reply := n.replies.headD (.unreachable "no scripted response")

theorem Network.post_eq (n : Network) (r : Request) : n.post r =
    (n.next, { n with replies := n.replies.tail, sent := n.sent ++ [r] }) := by
  unfold post next
  cases n.replies <;> rfl

theorem Site.outcome_send (r : Request) (u : Site) : (Site.send r).outcome u =
    (.ok u.network.next, { u with
      network := { u.network with
        replies := u.network.replies.tail
        sent := u.network.sent ++ [r] }
      journal := u.journal.writeAll (r.remarks u.network.lines u.network.next) }) := by
  simp only [Act.outcome, Site.send, EStateM.run, Network.post_eq]

theorem Request.of_mem_remarks {lines : Request → Reply → List String} {q : Request}
    {reply : Reply} {r : Record} (h : r ∈ q.remarks lines reply) :
    r.source = "urllib3.connectionpool" ∧ r.level = .debug := by
  obtain ⟨message, -, rfl⟩ := List.mem_map.1 h
  exact ⟨rfl, rfl⟩

/-- Nothing was told in between. -/
def Site.Quiet (s s' : Site) : Prop := s.journal.Tells [] s'.journal

namespace Site.Quiet

theorem refl (s : Site) : s.Quiet s := Journal.Tells.refl _

theorem trans (s t u : Site) (h : s.Quiet t) (h' : t.Quiet u) : s.Quiet u :=
  Journal.Tells.trans h h'

theorem log {source : String} (h : source ≠ "core.diagnostics") (level : Level)
    (message : String) : Act.Keeps Site.Quiet (Site.log source level message) :=
  Act.Keeps.modify fun s => Journal.Tells.write s.journal h

theorem send (r : Request) : Act.Keeps Site.Quiet (Site.send r) := fun s =>
  Journal.Tells.writeAll s.journal fun _ h => by
    rw [(Request.of_mem_remarks h).1]
    decide

end Site.Quiet

/-- What a post is known by can be shown. -/
structure PostRef.IsPlain (ref : PostRef) : Prop where
  id : ref.id.isShowable = true
  url : ref.url.isShowable = true

/-! ### Kinds of adapters -/

namespace Telegram

open Act (Keeps Yields)

/-- A relation that the log of the platform keeps. -/
structure PreservesLog (R : Site → Site → Prop) : Prop where
  refl : ∀ s, R s s
  trans : ∀ s t u, R s t → R t u → R s u
  log : ∀ level message, Keeps R (Site.log source level message)

/-- A relation that sending and the log of the platform keep. -/
structure Preserves (R : Site → Site → Prop) : Prop extends PreservesLog R where
  send : ∀ r, Keeps R (Site.send r)

theorem preserves_quiet : Preserves Site.Quiet where
  refl := Site.Quiet.refl
  trans := Site.Quiet.trans
  log := Site.Quiet.log (by decide)
  send := Site.Quiet.send

theorem PreservesLog.readReply {R : Site → Site → Prop} (h : PreservesLog R) (method : String)
    (reply : Reply) : Keeps R (readReply method reply) := by
  cases reply with
  | unreachable reason => exact Keeps.throw h.refl _
  | broken fault => exact Keeps.throw h.refl _
  | response status body =>
    simp only [Telegram.readReply]
    cases Json.parse? body with
    | none => exact Keeps.throw h.refl _
    | some data =>
      refine Keeps.bind h.trans (Keeps.ofOutcome h.refl _) fun es => ?_
      split
      · exact Keeps.pure h.refl _
      · exact Keeps.bind h.trans (h.log _ _) fun _ => Keeps.throw h.refl _

namespace Preserves

variable {R : Site → Site → Prop} (h : Preserves R)
include h

theorem call (t : Telegram) (method : String) (payload : Payload) :
    Keeps R (t.call method payload) := by
  refine Keeps.bind h.trans (Keeps.ofOutcome h.refl _) fun timeout => ?_
  exact Keeps.bind h.trans (h.send _) fun reply => h.readReply method reply

theorem publish (t : Telegram) (c : Content) : Keeps R (t.publish c) := by
  refine Keeps.bind h.trans (Keeps.ofOutcome h.refl _) fun chat => ?_
  split
  · refine Keeps.bind h.trans (Keeps.ofOutcome h.refl _) fun _ => ?_
    refine Keeps.bind h.trans (Keeps.get h.refl) fun site => ?_
    refine Keeps.bind h.trans (Keeps.ofOutcome h.refl _) fun payload => ?_
    exact Keeps.bind h.trans (h.call t _ _) fun result => Keeps.ofOutcome h.refl _
  · refine Keeps.bind h.trans (Keeps.ofOutcome h.refl _) fun _ => ?_
    exact Keeps.bind h.trans (h.call t _ _) fun result => Keeps.ofOutcome h.refl _

theorem verify (t : Telegram) : Keeps R t.verify := by
  refine Keeps.bind h.trans (h.call t _ _) fun me => ?_
  exact Keeps.bind h.trans (Keeps.ofOutcome h.refl _) fun es => Keeps.pure h.refl _

end Preserves

theorem refOf_plain {t : Telegram} {chat : String} {result : Value} {ref : PostRef}
    (h : t.refOf chat result = .ok ref) : ref.IsPlain := by
  unfold refOf at h
  cases he : result.entries "get" with
  | error f => rw [he] at h; cases h
  | ok es =>
    rw [he] at h
    dsimp only [bind, Except.bind] at h
    split at h
    · cases h
    · cases hs : (Entries.get es "message_id").shown with
      | error f => rw [hs] at h; cases h
      | ok shown => rw [hs] at h; cases h; exact ⟨rfl, rfl⟩

theorem publish_plain (t : Telegram) (c : Content) : Yields PostRef.IsPlain (t.publish c) := by
  refine Yields.bind fun chat => ?_
  split
  · refine Yields.bind fun _ => Yields.bind fun site => Yields.bind fun payload => ?_
    exact Yields.bind fun result => Yields.ofOutcome fun _ h => refOf_plain h
  · refine Yields.bind fun _ => ?_
    exact Yields.bind fun result => Yields.ofOutcome fun _ h => refOf_plain h

end Telegram

namespace Dummy

open Act (Keeps Yields)

theorem publish_config (c : Content) :
    Keeps (fun d d' : Dummy => d'.config = d.config) (publish c) := by
  have hr : ∀ d : Dummy, d.config = d.config := fun _ => rfl
  have ht : ∀ d e f : Dummy, e.config = d.config → f.config = e.config → f.config = d.config :=
    fun _ _ _ h h' => h'.trans h
  refine Keeps.bind ht (Keeps.ofOutcome hr _) fun _ => ?_
  refine Keeps.bind ht (Keeps.get hr) fun d => ?_
  refine Keeps.bind ht (Keeps.ofOutcome hr _) fun _ => ?_
  refine Keeps.bind ht (fun d => hr d) fun n => ?_
  exact Keeps.bind_get fun d => rfl

theorem publish_plain (c : Content) : Yields PostRef.IsPlain (publish c) := by
  refine Yields.bind fun _ => Yields.bind fun d => Yields.bind fun _ => Yields.bind fun n => ?_
  exact Yields.bind fun d => Yields.bind fun _ => Yields.pure ⟨rfl, rfl⟩

end Dummy

namespace Recorder

open Act (Keeps Yields)

theorem leave_id (clock : Nat) (c : Content) :
    Keeps (fun r r' : Recorder => r'.id = r.id) (leave clock c) := by
  have hr : ∀ r : Recorder, r.id = r.id := fun _ => rfl
  have ht : ∀ r s t : Recorder, s.id = r.id → t.id = s.id → t.id = r.id :=
    fun _ _ _ h h' => h'.trans h
  refine Keeps.bind ht (Keeps.modify fun _ => rfl) fun _ => ?_
  refine Keeps.bind_get fun r => ?_
  split
  · exact Keeps.bind ht (Keeps.ofOutcome hr _) (fun _ => Keeps.throw hr _) r
  · rw [Act.outcome_bind_ok (Act.outcome_set _ _)]
    exact Keeps.ofOutcome (R := fun r r' : Recorder => r'.id = r.id) hr _ _

theorem verify_id : Keeps (fun r r' : Recorder => r'.id = r.id) verify := by
  intro r
  simp only [verify, Act.outcome, EStateM.run]
  split <;> rename_i h <;> split at h <;> cases h <;> rfl

theorem refOf_plain {r : Recorder} {n : Nat} {ref : PostRef} (h : r.refOf n = .ok ref) :
    ref.IsPlain := by
  unfold refOf at h
  cases hs : r.id.shown with
  | error f => rw [hs] at h; cases h
  | ok shown =>
    rw [hs] at h
    cases h
    refine ⟨rfl, ?_⟩
    dsimp only
    split <;> rfl

theorem leave_plain (clock : Nat) (c : Content) : Yields PostRef.IsPlain (leave clock c) := by
  refine Yields.bind fun _ => Yields.bind fun r => ?_
  split
  · exact Yields.bind fun _ => Yields.throw _
  · exact Yields.bind fun _ => Yields.ofOutcome fun _ h => refOf_plain h

end Recorder

/-! ### All adapters -/

/-- The adapter has kept its id, and nothing was told. -/
structure Station.Quiet (s s' : Station) : Prop where
  id : s'.adapter.id = s.adapter.id
  site : s.site.Quiet s'.site

namespace Station

open Act (Keeps Yields)

theorem Quiet.refl (s : Station) : s.Quiet s := ⟨rfl, Site.Quiet.refl _⟩

theorem Quiet.trans (s t u : Station) (h : s.Quiet t) (h' : t.Quiet u) : s.Quiet u :=
  ⟨h'.id.trans h.id, Site.Quiet.trans _ _ _ h.site h'.site⟩

variable {α : Type} {s : Station}

theorem outcome_onDummy (d : Dummy) (x : Act Dummy α) :
    (onDummy d x).outcome s = ((x.outcome d).1, { s with adapter := .dummy (x.outcome d).2 }) := by
  simp only [Act.outcome, onDummy, EStateM.run]
  cases x d <;> rfl

theorem outcome_onRecorder (r : Recorder) (x : Act Recorder α) :
    (onRecorder r x).outcome s =
      ((x.outcome r).1, { s with adapter := .recorder (x.outcome r).2 }) := by
  simp only [Act.outcome, onRecorder, EStateM.run]
  cases x r <;> rfl

theorem onSite_quiet {x : Act Site α} (h : Keeps Site.Quiet x) : Keeps Quiet (onSite x) :=
  Keeps.within h fun _ _ hs => ⟨rfl, hs⟩

theorem onDummy_quiet {d : Dummy} {x : Act Dummy α} (ha : s.adapter = .dummy d)
    (h : Keeps (fun d d' : Dummy => d'.config = d.config) x) :
    s.Quiet ((onDummy d x).outcome s).2 := by
  rw [outcome_onDummy]
  refine ⟨?_, Site.Quiet.refl _⟩
  have hc : (x.outcome d).2.config = d.config := h d
  simp only [ha, Adapter.id, Dummy.id, hc]

theorem onRecorder_quiet {r : Recorder} {x : Act Recorder α} (ha : s.adapter = .recorder r)
    (h : Keeps (fun r r' : Recorder => r'.id = r.id) x) :
    s.Quiet ((onRecorder r x).outcome s).2 := by
  rw [outcome_onRecorder]
  refine ⟨?_, Site.Quiet.refl _⟩
  have hc : (x.outcome r).2.id = r.id := h r
  simp only [ha, Adapter.id, hc]

theorem publish_quiet (clock : Nat) (c : Content) : Keeps Quiet (publish clock c) := by
  refine Keeps.bind_get fun s => ?_
  cases ha : s.adapter with
  | dummy d =>
    have hd := onDummy_quiet ha (Dummy.publish_config c)
    cases ho : (onDummy d (Dummy.publish c)).outcome s with
    | mk r t =>
      rw [ho] at hd
      cases r with
      | error f => simp only [Act.outcome_bind_error ho]; exact hd
      | ok ref =>
        have hl : Keeps Quiet (onSite (Site.log "socials.dummy" .debug
            ("DummyAdapter stored " ++ ref.id.display))) :=
          onSite_quiet (Site.Quiet.log (by decide) _ _)
        simp only [Act.outcome_bind_ok ho]
        exact hd.trans _ _ _ (Keeps.bind Quiet.trans hl (fun _ => Keeps.pure Quiet.refl ref) t)
  | telegram t => exact onSite_quiet (Telegram.preserves_quiet.publish t c) s
  | recorder r => exact onRecorder_quiet ha (Recorder.leave_id clock c)
  | bare b => exact Quiet.refl s

theorem verify_quiet : Keeps Quiet verify := by
  refine Keeps.bind_get fun s => ?_
  cases ha : s.adapter with
  | dummy d => exact Keeps.ofOutcome Quiet.refl _ s
  | telegram t => exact onSite_quiet (Telegram.preserves_quiet.verify t) s
  | recorder r => exact onRecorder_quiet ha Recorder.verify_id
  | bare b => exact Quiet.refl s

theorem publish_plain (clock : Nat) (c : Content) : Yields PostRef.IsPlain (publish clock c) := by
  refine Yields.bind fun s => ?_
  cases s.adapter with
  | dummy d =>
    have hd : Yields PostRef.IsPlain (onDummy d (Dummy.publish c)) := by
      intro s ref h
      rw [outcome_onDummy] at h
      exact Dummy.publish_plain c d ref h
    exact Yields.bind_of hd fun ref h => Yields.bind fun _ => Yields.pure h
  | telegram t => exact Yields.within (t.publish_plain c)
  | recorder r =>
    intro s ref h
    rw [outcome_onRecorder] at h
    exact Recorder.leave_plain clock c r ref h
  | bare b => exact Yields.throw _

end Station

end Syndicate

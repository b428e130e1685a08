import Syndicate.Proofs.Adapter.Platform
import Syndicate.Proofs.Failure

/-! The requests that a channel adapter makes over any row of calls, whatever comes back. A call
makes one request at most and none when it finds a text too long, what goes out is within the limit
for its kind, and only posts and edits go to another channel than the configured one. -/

namespace Syndicate

/-! ### What a payload says -/

/-- There is no text, or one of at most so many characters. -/
def Value.FitsIn (limit : Nat) (v : Value) : Prop :=
  v = .null ∨ ∃ s, v = .text s ∧ s.length ≤ limit

theorem Value.FitsIn.of_checkLength {text : Value} (ht : text.isTextual = true) (limit : Nat)
    (hl : (Value.int limit).isShowable = true) (h : checkLength (.int limit) text = .ok ()) :
    text.FitsIn limit := by
  have hlength := (Content.checkLength_ok_iff (c := { text := text }) ht limit hl).1 h
  cases text with
  | null => exact .inl rfl
  | text s => exact .inr ⟨s, rfl, hlength⟩
  | _ => cases ht

/-- What counts as no text is sent as an empty one. -/
theorem Value.FitsIn.caption {limit : Nat} {v : Value} (h : v.FitsIn limit) :
    (Telegram.caption v).FitsIn limit := by
  unfold Telegram.caption
  split
  · exact h
  · exact .inr ⟨"", rfl, Nat.zero_le limit⟩

namespace Payload

/-- The fields of a payload, without its file. -/
def fields : Payload → Entries
  | .json es => es
  | .form es _ _ _ => es

/-- A payload has a text in it or a caption, which is within the limit for it. -/
inductive IsWorded (p : Payload) : Prop
  | text (v : Value) (htext : Entries.get? p.fields "text" = some v) (hfits : v.FitsIn 4096)
    (hcaption : Entries.get? p.fields "caption" = none)
  | caption (v : Value) (hcaption : Entries.get? p.fields "caption" = some v)
    (hfits : v.FitsIn 1024) (htext : Entries.get? p.fields "text" = none)

/-- A payload has neither in it. -/
structure IsWordless (p : Payload) : Prop where
  text : Entries.get? p.fields "text" = none
  caption : Entries.get? p.fields "caption" = none

end Payload

namespace Telegram

variable {g : Telegram} {files : Files} {c : Content} {chat name : String} {payload : Payload}
  {m : Message} {u : Site}

/-! ### Posts and edits -/

theorem textFields_isWorded (hfits : c.text.FitsIn 4096) :
    (Payload.json (g.textFields chat c)).IsWorded := by
  refine .text c.text get?_textFields hfits ?_
  rw [Payload.fields, textFields, Entries.get?_append, commonFields]
  cases c.option? "disable_preview" <;> split <;> simp [field]

/-- A medium goes out along with the caption of the post, however it does. -/
theorem mediaPayload_isWorded {medium : Value} (hm : c.medium? = some (name, medium))
    (hfits : c.text.FitsIn 1024)
    (h : mediaPayload files name medium (g.captionFields chat c) = .ok payload) :
    payload.IsWorded := by
  have hother : name ≠ "caption" ∧ name ≠ "text" := by
    rcases Content.name_of_medium? hm with rfl | rfl | rfl | rfl <;> decide
  have htext : Entries.get? (g.captionFields chat c) "text" = none := by
    rw [captionFields, Entries.get?_append, commonFields]
    split <;> simp [field]
  cases medium with
  | text path =>
    rw [mediaPayload_cases files path hm] at h
    split at h
    · cases h
    · cases h
      refine .caption _ ?_ hfits.caption ?_
      · simp [Payload.fields, get?_captionFields]
      · simp [Payload.fields, htext, hother.2]
    · cases h
      refine .caption (formValue (caption c.text)) ?_ ?_ ?_
      · simp [Payload.fields, Entries.get?_map, get?_captionFields]
      · obtain hnull | ⟨s, hs, hlength⟩ := hfits.caption
        · exact .inl (by rw [hnull]; rfl)
        · exact .inr ⟨s, by rw [hs]; rfl, hlength⟩
      · simp [Payload.fields, Entries.get?_map, htext]
  | _ => cases h

theorem message_isWorded (hc : c.text.isTextual = true) (h : g.message files c = .ok m) :
    m.payload.IsWorded := by
  obtain ⟨chat, hchat, h⟩ := ok_of_bind h
  unfold messageTo at h
  split at h
  · obtain ⟨_, hcheck, h⟩ := ok_of_bind h
    obtain ⟨payload, hpayload, h⟩ := ok_of_bind h
    cases h
    have hfits := Value.FitsIn.of_checkLength hc 1024 (by decide) hcheck
    exact mediaPayload_isWorded ‹_› hfits hpayload
  · obtain ⟨_, hcheck, h⟩ := ok_of_bind h
    cases h
    exact textFields_isWorded (.of_checkLength hc 4096 (by decide) hcheck)

theorem edition_isWorded {n : Int} (hc : c.text.isTextual = true)
    (h : g.edition c chat n = .ok m) : m.payload.IsWorded := by
  unfold edition at h
  split at h
  · obtain ⟨_, hcheck, h⟩ := ok_of_bind h
    cases h
    have hfits := Value.FitsIn.of_checkLength hc 1024 (by decide) hcheck
    exact .caption _ (by simp [Payload.fields, editFields, field]) hfits.caption
      (by simp [Payload.fields, editFields, field])
  · obtain ⟨_, hcheck, h⟩ := ok_of_bind h
    cases h
    have hfits := Value.FitsIn.of_checkLength hc 4096 (by decide) hcheck
    exact .text _ (by simp [Payload.fields, editFields, field]) hfits
      (by simp [Payload.fields, editFields, field])

/-! ### Operations -/

namespace Operation

variable {op : Operation}

/-- The text of an operation, if it has one, is a text or null. -/
def HasText : Operation → Prop
  | publish c | update _ c => c.text.isTextual = true
  | reply _ text => text.isTextual = true
  | verify | delete _ => True

/-- Whether there are words in what an operation sends. -/
def speaks : Operation → Bool
  | publish _ | update _ _ | reply _ _ => true
  | verify | delete _ => false

/-- Whether an operation goes to the configured channel in any case. -/
def isHome : Operation → Bool
  | delete _ | reply _ _ => true
  | verify | publish _ | update _ _ => false

theorem message_isWorded (hop : op.HasText) (hs : op.speaks = true)
    (h : op.message g files = .ok m) : m.payload.IsWorded := by
  cases op with
  | publish c => exact Telegram.message_isWorded hop h
  | update postId c =>
    obtain ⟨chat, -, h⟩ := ok_of_bind h
    obtain ⟨n, -, h⟩ := ok_of_bind h
    exact edition_isWorded hop h
  | reply target text =>
    obtain ⟨_, hcheck, h⟩ := ok_of_bind h
    obtain ⟨n, -, h⟩ := ok_of_bind h
    cases h
    have hfits := Value.FitsIn.of_checkLength hop 4096 (by decide) hcheck
    exact .text text (by simp [Payload.fields, field]) hfits (by simp [Payload.fields, field])
  | verify | delete postId => cases hs

theorem message_isWordless (hs : op.speaks = false) (h : op.message g files = .ok m) :
    m.payload.IsWordless := by
  cases op with
  | verify =>
    cases h
    exact ⟨rfl, rfl⟩
  | delete postId =>
    obtain ⟨n, -, h⟩ := ok_of_bind h
    cases h
    exact ⟨by simp [Payload.fields, field], by simp [Payload.fields, field]⟩
  | publish c | update postId c | reply target text => cases hs

theorem message_home (hhome : op.isHome = true) (h : op.message g files = .ok m) :
    Entries.get? m.payload.fields "chat_id" = some (.text g.chatId) := by
  cases op with
  | delete postId =>
    obtain ⟨n, -, h⟩ := ok_of_bind h
    cases h
    simp [Payload.fields, field]
  | reply target text =>
    obtain ⟨_, -, h⟩ := ok_of_bind h
    obtain ⟨n, -, h⟩ := ok_of_bind h
    cases h
    simp [Payload.fields, field]
  | verify | publish c | update postId c => cases hhome

end Operation

/-! ### What a call fails of once it is made -/

theorem refOf_failsWith (chat : String) (result : Value) :
    FailsWith (∃ p, · = .publish p) (g.refOf chat result) := by
  refine .bind Value.entries_uses.failsWith fun es => ?_
  split
  · exact .fail ⟨_, rfl⟩
  · exact .bind Value.shown_uses.failsWith fun _ => .pure _

theorem answered_failsWith (method : String) (r : Reply) :
    FailsWith (∃ p, · = .publish p) (answered method r) := by
  unfold answered
  split
  · exact .fail ⟨_, rfl⟩
  · exact .faulty _
  · split
    · exact .fail ⟨_, rfl⟩
    · refine .bind Value.entries_uses.failsWith fun es => ?_
      split
      · exact .pure _
      · exact .fail ⟨_, rfl⟩

theorem timeoutFor_uses (payload : Payload) : Uses (g.timeoutFor payload) := by
  unfold timeoutFor Value.twice
  split
  · exact .ok _
  · split
    · exact .ok _
    · exact .ok _
    · exact .ok _
    · split
      · exact .ok _
      · exact .faulty _

/-- Once there is something to send, at most one request goes out, and what can go wrong then has
nothing to do with its length. -/
theorem call_makes (method : String) (payload : Payload) (u : Site) :
    FailsWith (∃ p, · = .publish p) ((g.call method payload).outcome u).1 ∧
    ∃ rs : List Request, ((g.call method payload).outcome u).2.network.sent =
      u.network.sent ++ rs ∧ rs.length ≤ 1 ∧ ∀ r ∈ rs, r.payload = payload := by
  cases ht : g.timeoutFor payload with
  | error f =>
    rw [call_untimed ht]
    refine ⟨fun e he => ?_, [], by simp⟩
    exact (timeoutFor_uses payload e (ht.trans he)).elim
  | ok timeout =>
    refine ⟨?_, _, g.call_sent method ht u, by simp⟩
    rw [call_answered ht]
    exact answered_failsWith method _

theorem Operation.reading_failsWith (op : Operation) (m : Message) (result : Value) :
    FailsWith (∃ p, · = .publish p) (op.reading g m result) := by
  cases op with
  | verify => exact .bind Value.entries_uses.failsWith fun _ => .pure _
  | publish c => exact .bind (refOf_failsWith _ _) fun _ => .pure _
  | reply target text => exact .bind (refOf_failsWith _ _) fun _ => .pure _
  | update postId c => exact .bind Value.shown_uses.failsWith fun _ => .pure _
  | delete postId => exact .ok _

/-- What an operation sends and fails of: nothing is sent unless there is a message, and then at
most one request is, which carries it. -/
theorem Operation.run_makes (g : Telegram) (op : Operation) (u : Site) :
    (∃ f, op.message g u.files = .error f ∧ (op.run g).outcome u = (.error f, u)) ∨
    ∃ m rs, op.message g u.files = .ok m ∧
      FailsWith (∃ p, · = .publish p) ((op.run g).outcome u).1 ∧
      ((op.run g).outcome u).2.network.sent = u.network.sent ++ rs ∧ rs.length ≤ 1 ∧
      ∀ r ∈ rs, r.payload = m.payload := by
  have hcalls := calls_run g op u
  unfold Calls at hcalls
  rw [hcalls]
  cases op.message g u.files with
  | error f => exact .inl ⟨f, rfl, rfl⟩
  | ok m =>
    dsimp only
    obtain ⟨hfails, rs, hsent, hone, hpayload⟩ := g.call_makes m.method m.payload u
    refine .inr ⟨m, rs, rfl, ?_, ?_, hone, hpayload⟩
    · rw [Act.outcome_bind]
      cases hout : (g.call m.method m.payload).outcome u with
      | mk o v =>
        rw [hout] at hfails
        cases o with
        | error f =>
          rintro e ⟨⟩
          exact hfails e rfl
        | ok result =>
          dsimp only
          rw [Act.outcome_ofOutcome]
          exact op.reading_failsWith m result
    · rw [Act.state_bind_ofOutcome, hsent]

end Telegram

/-! ### Rows of calls -/

namespace Station

/-- A call of an adapter. A post has the time of the clock at its end. -/
inductive Call where
  | verify
  | publish (clock : Nat) (c : Content)
  | update (postId : Value) (c : Content)
  | delete (postId : Value)
  | feedback (postId : Value)
  | reply (target : Target) (text : Value)

namespace Call

/-- Makes a call for what it does. -/
def perform : Call → Act Station Unit
  | verify => do let _ ← Station.verify
  | publish clock c => do let _ ← Station.publish clock c
  | update postId c => do let _ ← Station.update postId c
  | delete postId => do let _ ← Station.delete postId
  | feedback postId => do let _ ← Station.feedback postId
  | reply target text => do let _ ← Station.reply target text

/-- What a channel adapter does on a call; it knows of no feedback. -/
def operation? : Call → Option Telegram.Operation
  | verify => some .verify
  | publish _ c => some (.publish c)
  | update postId c => some (.update postId c)
  | delete postId => some (.delete postId)
  | feedback _ => none
  | reply target text => some (.reply target text)

/-- The text of a call, if it has one, is a text or null. -/
def HasText (call : Call) : Prop := ∀ op, call.operation? = some op → op.HasText

/-- An action on the surroundings of an adapter leaves the adapter as it is. -/
theorem outcome_onSite {α : Type} (x : Act Site α) (a : Adapter) (u : Site) :
    (do let _ ← Station.onSite x : Act Station Unit).outcome ⟨a, u⟩ =
      (((do let _ ← x : Act Site Unit).outcome u).1,
        ⟨a, ((do let _ ← x : Act Site Unit).outcome u).2⟩) := by
  rw [Act.outcome_bind_pure, Act.outcome_bind_pure, Station.onSite, Act.outcome_within]

theorem outcome_perform (call : Call) (g : Telegram) (u : Site) :
    call.perform.outcome ⟨.telegram g, u⟩ = match call.operation? with
      | none => (.ok (), ⟨.telegram g, u⟩)
      | some op => (((op.run g).outcome u).1, ⟨.telegram g, ((op.run g).outcome u).2⟩) := by
  cases call with
  | verify => exact outcome_onSite g.verify (.telegram g) u
  | publish clock c => exact outcome_onSite (g.publish c) (.telegram g) u
  | update postId c => exact outcome_onSite (g.update postId c) (.telegram g) u
  | delete postId => exact outcome_onSite (g.delete postId) (.telegram g) u
  | feedback postId => rfl
  | reply target text => exact outcome_onSite (g.reply target text) (.telegram g) u

/-- Whether there are words in what a call sends. -/
def speaks (call : Call) : Bool := call.operation?.any Telegram.Operation.speaks

/-- Whether a call goes to the configured channel in any case: deletions and replies do. -/
def isHome (call : Call) : Bool := call.operation?.any Telegram.Operation.isHome

end Call

/-- A call that was made, what came of it, and the requests that went out for it. -/
structure Attempt where
  call : Call
  result : Outcome Unit
  requests : List Request

/-- A call makes one request at most, and none if a text is too long. What the request says is
within its limit, and where it goes was configured unless it is a post or an edit. -/
structure Attempt.IsMeasured (g : Telegram) (a : Attempt) : Prop where
  once : a.requests.length ≤ 1
  refused : ∀ limit length, a.result = fail (.tooLong limit length) → a.requests = []
  worded : a.call.speaks = true → ∀ r ∈ a.requests, r.payload.IsWorded
  wordless : a.call.speaks = false → ∀ r ∈ a.requests, r.payload.IsWordless
  home : a.call.isHome = true → ∀ r ∈ a.requests,
    Entries.get? r.payload.fields "chat_id" = some (.text g.chatId)

theorem Attempt.isMeasured_nil (g : Telegram) (call : Call) (result : Outcome Unit) :
    IsMeasured g ⟨call, result, []⟩ where
  once := Nat.zero_le 1
  refused _ _ _ := rfl
  worded _ _ h := absurd h List.not_mem_nil
  wordless _ _ h := absurd h List.not_mem_nil
  home _ _ h := absurd h List.not_mem_nil

/-- One call leaves the adapter as it is, and only appends to the requests. -/
theorem Call.perform_measured (g : Telegram) (u : Site) {call : Call} (h : call.HasText) :
    ∃ v rs, call.perform.outcome ⟨.telegram g, u⟩ =
        ((call.perform.outcome ⟨.telegram g, u⟩).1, ⟨.telegram g, v⟩) ∧
      v.network.sent = u.network.sent ++ rs ∧
      Attempt.IsMeasured g ⟨call, (call.perform.outcome ⟨.telegram g, u⟩).1, rs⟩ := by
  rw [outcome_perform]
  cases hop : call.operation? with
  | none => exact ⟨u, [], rfl, by simp, Attempt.isMeasured_nil g call _⟩
  | some op =>
    dsimp only
    obtain ⟨f, -, hrun⟩ | ⟨m, rs, hm, hfails, hsent, hone, hpayload⟩ := op.run_makes g u
    · rw [hrun]
      exact ⟨u, [], rfl, by simp, Attempt.isMeasured_nil g call _⟩
    · refine ⟨_, rs, rfl, hsent, hone, fun limit length hlong => ?_, fun hs r hr => ?_,
        fun hs r hr => ?_, fun hhome r hr => ?_⟩
      · obtain ⟨p, hp⟩ := hfails _ hlong
        cases hp
      · rw [speaks, hop] at hs
        rw [hpayload r hr]
        exact op.message_isWorded (h op hop) hs hm
      · rw [speaks, hop] at hs
        rw [hpayload r hr]
        exact op.message_isWordless hs hm
      · rw [isHome, hop] at hhome
        rw [hpayload r hr]
        exact op.message_home hhome hm

/-- Makes calls one after the other, whether they fail or not. -/
def attempts (s : Station) : List Call → List Attempt × Station
  | [] => ([], s)
  | call :: calls =>
    let (result, t) := call.perform.outcome s
    let (rest, u) := t.attempts calls
    (⟨call, result, t.site.network.sent.drop s.site.network.sent.length⟩ :: rest, u)

/-- Over any row of calls and with any replies, every call of a channel adapter is measured, and no
request goes out but for a call. -/
theorem attempts_measured (g : Telegram) (u : Site) {calls : List Call}
    (h : ∀ call ∈ calls, call.HasText) :
    let run := attempts ⟨.telegram g, u⟩ calls
    run.1.map Attempt.call = calls ∧ run.2.adapter = .telegram g ∧
      run.2.site.network.sent = u.network.sent ++ run.1.flatMap Attempt.requests ∧
      ∀ a ∈ run.1, a.IsMeasured g := by
  induction calls generalizing u with
  | nil => simp [attempts]
  | cons call calls ih =>
    obtain ⟨v, rs, hv, hsent, hmeasured⟩ :=
      Call.perform_measured g u (h call List.mem_cons_self)
    obtain ⟨hcalls, hadapter, hrest, hall⟩ :=
      ih v fun c hc => h c (List.mem_cons_of_mem call hc)
    have hmade : v.network.sent.drop u.network.sent.length = rs := by
      rw [hsent, List.drop_left]
    rw [attempts, hv]
    dsimp only
    rw [hmade]
    refine ⟨congrArg _ hcalls, hadapter, ?_, List.forall_mem_cons.2 ⟨hmeasured, hall⟩⟩
    rw [hrest, hsent, List.flatMap_cons, List.append_assoc]

/-- Two posts to another channel, the second one too long, and what goes to the configured one. -/
def errands : List Call :=
  [.publish 0 { text := .text "Hi", options := [(.text "channel", .text "@other")] },
   .publish 0 { text := .text (String.ofList (List.replicate 5000 'a')) },
   .delete (.text "7"), .feedback (.text "7"), .reply (.other (.text "7")) .null, .verify]

theorem errands_measured : (∀ call ∈ errands, call.HasText) ∧
    ∀ a ∈ (attempts ⟨.telegram Telegram.Operation.bot, {}⟩ errands).1,
      a.IsMeasured Telegram.Operation.bot := by
  have htext : ∀ call ∈ errands, call.HasText := by
    simp only [errands, List.forall_mem_cons]
    refine ⟨?_, ?_, ?_, ?_, ?_, ?_, fun _ h => absurd h List.not_mem_nil⟩ <;>
      rintro op ⟨⟩ <;> trivial
  exact ⟨htext, (attempts_measured _ _ htext).2.2.2⟩

end Station

end Syndicate

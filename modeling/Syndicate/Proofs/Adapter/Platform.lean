import Syndicate.Proofs.Adapter.Telegram
import Syndicate.Proofs.Json

/-! What the operations of a channel adapter can end in. They yield something or fail as publishing
does, but for what cannot be sent at all and for replies that are no mappings where one is looked
into. -/

namespace Syndicate

/-- Whether a failure is one of publishing, as that of a text that is too long. -/
def Failure.isPublishing : Failure → Bool
  | .error e => e.families.contains .publish
  | .fault _ => false

/-- There is a result, or a failure of publishing instead. -/
def Settled {α : Type} (o : Outcome α) : Prop := ∀ f, o = .error f → f.isPublishing = true

theorem settled_ok {α : Type} (a : α) : Settled (.ok a) := nofun

theorem settled_error {α : Type} {f : Failure} :
    Settled (.error f : Outcome α) ↔ f.isPublishing = true :=
  ⟨fun h => h f rfl, fun h _ hf => Except.error.inj hf ▸ h⟩

theorem not_settled_faulty {α : Type} (f : Fault) : ¬ Settled (faulty f : Outcome α) := fun h => by
  cases h _ rfl

theorem settled_bind {α β : Type} {o : Outcome α} {f : α → Outcome β} :
    Settled (o >>= f) ↔ Settled o ∧ ∀ a, o = .ok a → Settled (f a) := by
  cases o with
  | error e => exact ⟨fun h => ⟨fun _ he => h _ (congrArg _ (Except.error.inj he)), nofun⟩,
      fun h => settled_error.2 (settled_error.1 h.1)⟩
  | ok a => exact ⟨fun h => ⟨settled_ok a, fun _ ha => Except.ok.inj ha ▸ h⟩, fun h => h.2 a rfl⟩

/-- What can only come to something or fail otherwise than publishing does, and what follows it. -/
theorem settled_bind_iff {α β : Type} {o : Outcome α} {f : α → Outcome β} {p : Prop}
    (ho : Settled o → ∃ a, o = .ok a) (hf : ∀ a, Settled (f a) ↔ p) :
    Settled (o >>= f) ↔ Settled o ∧ p := by
  refine settled_bind.trans (and_congr_right fun h => ?_)
  obtain ⟨a, rfl⟩ := ho h
  exact ⟨fun h => (hf a).1 (h a rfl), fun hp b _ => (hf b).2 hp⟩

/-! ### Ids -/

/-- Whether a text is a row of digits, but for what may stand around and between them, and how many
there are. -/
def Text.IsInteger (s : String) (digits : Nat) : Prop :=
  ∃ negative ds, numeral? s = some (negative, ds) ∧ ds ≠ [] ∧ (∀ c ∈ ds, c.isDigit = true) ∧
    ds.length = digits

/-- An id of a post as it is written for a platform that numbers its posts. -/
def Value.IsNumber (v : Value) (digits : Nat) : Prop := ∃ s, v = .text s ∧ Text.IsInteger s digits

theorem Value.IsNumber.unique {v : Value} {m n : Nat} (hm : v.IsNumber m) (hn : v.IsNumber n) :
    m = n := by
  obtain ⟨s, rfl, _, _, hs, -, -, rfl⟩ := hm
  obtain ⟨t, ht, _, _, hs', -, -, rfl⟩ := hn
  cases ht
  cases hs.symm.trans hs'
  rfl

/-- Only so many digits are read. -/
theorem Value.IsNumber.toInt {v : Value} {digits : Nat} (h : v.IsNumber digits) :
    (digits ≤ Text.maxDigits ∧ ∃ n, v.toInt = .ok n) ∨
      (Text.maxDigits < digits ∧ ∃ f, v.toInt = faulty f) := by
  obtain ⟨s, rfl, negative, ds, hs, hne, hall, rfl⟩ := h
  by_cases hle : ds.length ≤ Text.maxDigits
  · refine .inl ⟨hle, Text.withSign negative (Text.digitsValue ds), ?_⟩
    simp [Value.toInt, Text.integer?, hs, hne, hle, if_pos hall]
  · refine .inr ⟨Nat.lt_of_not_le hle, ?_⟩
    simp [Value.toInt, Text.integer?, hs, hne, hle]

theorem Value.IsNumber.settled_bind {α : Type} {v : Value} {digits : Nat} (h : v.IsNumber digits)
    {f : Int → Outcome α} (hf : ∀ n, Settled (f n)) :
    Settled (v.toInt >>= f) ↔ ¬ Text.maxDigits < digits := by
  rcases h.toInt with ⟨hle, n, hn⟩ | ⟨hlt, e, he⟩
  · rw [hn]
    exact iff_of_true (hf n) (Nat.not_lt.2 hle)
  · rw [he]
    exact iff_of_false (not_settled_faulty e) (not_not_intro hlt)

/-- The number of the post that a reply goes to. -/
def Target.number (t : Target) : Outcome Int := do (← t.id).toInt

/-! ### Replies -/

namespace Reply

/-- The request was answered, or it failed on its way. -/
def IsHttp : Reply → Prop
  | .broken _ => False
  | _ => True

/-- The body is JSON, but no mapping. -/
def IsShapeless : Reply → Prop
  | .response _ body => ∃ v, Json.parse? body = some v ∧ ∀ es, v ≠ .map es
  | _ => False

/-- The body says that all is well, with a result that is there and is no mapping. -/
def IsLoose : Reply → Prop
  | .response _ body => ∃ es, Json.parse? body = some (.map es) ∧
      (Entries.get es "ok").truthy = true ∧ (Entries.get es "result").truthy = true ∧
      ∀ fs, Entries.get es "result" ≠ .map fs
  | _ => False

end Reply

namespace Telegram

/-- What a call makes of the reply. -/
def answered (method : String) : Reply → Outcome Value
  | .unreachable reason => fail (.publish (.requestFailed method reason))
  | .broken f => faulty f
  | .response status body =>
    match Json.parse? body with
    | none => fail (.publish (.replyUnreadable method status))
    | some data => do
      let es ← data.entries "get"
      if (Entries.get es "ok").truthy then
        pure (if (Entries.get es "result").truthy then Entries.get es "result" else .map [])
      else fail (.publish (.refused (Entries.get es "description")))

theorem readReply_eq (method : String) (reply : Reply) (u : Site) :
    ((readReply method reply).outcome u).1 = answered method reply := by
  cases reply with
  | unreachable reason => rfl
  | broken f => rfl
  | response status body =>
    simp only [readReply, answered]
    cases Json.parse? body with
    | none => rfl
    | some data =>
      dsimp only
      rw [Act.outcome_ofOutcome_bind]
      cases data.entries "get" with
      | error f => rfl
      | ok es =>
        show (Act.outcome (if (Entries.get es "ok").truthy = true then _ else _) u).1 =
          if (Entries.get es "ok").truthy = true then _ else _
        split <;> rfl

variable {g : Telegram} {method : String} {payload : Payload} {u : Site}

/-- The time that a call may take is a number. -/
def IsTimed (g : Telegram) : Prop := g.timeout.asInt?.isSome = true ∨ ∃ x, g.timeout = .float x

theorem IsTimed.timeoutFor (hg : g.IsTimed) (payload : Payload) :
    ∃ timeout, g.timeoutFor payload = .ok timeout := by
  unfold Telegram.timeoutFor
  split
  · exact ⟨_, rfl⟩
  · rcases hg with hg | ⟨x, hx⟩
    · cases ht : g.timeout <;> simp_all [Value.asInt?, Value.twice]
    · rw [hx]
      exact ⟨_, rfl⟩

theorem call_untimed {f : Failure} (ht : g.timeoutFor payload = .error f) (method : String)
    (u : Site) : (g.call method payload).outcome u = (.error f, u) := by
  rw [call, Act.outcome_ofOutcome_bind, ht]

/-- A call that may take some time comes to what it makes of the reply. -/
theorem call_answered {timeout : Value} (ht : g.timeoutFor payload = .ok timeout) (method : String)
    (u : Site) : ((g.call method payload).outcome u).1 = answered method u.network.next := by
  rw [call, Act.outcome_ofOutcome_bind, ht]
  dsimp only
  rw [Act.outcome_bind_ok (Site.outcome_send _ u), readReply_eq]

theorem call_eq (hg : g.IsTimed) (method : String) (payload : Payload) (u : Site) :
    ((g.call method payload).outcome u).1 = answered method u.network.next := by
  obtain ⟨timeout, ht⟩ := hg.timeoutFor payload
  exact call_answered ht method u

theorem call_bind_eq {α : Type} (hg : g.IsTimed) (read : Value → Outcome α) :
    ((g.call method payload >>= fun result => Act.ofOutcome (read result)).outcome u).1 =
      answered method u.network.next >>= read := by
  rw [← call_eq hg method payload, Act.outcome_bind]
  cases (g.call method payload).outcome u with
  | mk o v =>
    cases o with
    | error f => rfl
    | ok result => exact congrArg Prod.fst (Act.outcome_ofOutcome v (read result))

/-! ### Operations -/

/-- An action is one call, of whose result something is made, unless there is nothing that could be
sent. -/
def Calls {α : Type} (g : Telegram) (u : Site) (m : Outcome Message)
    (read : Message → Value → Outcome α) (x : Act Site α) : Prop :=
  x.outcome u = match m with
    | .error f => (.error f, u)
    | .ok m => (g.call m.method m.payload >>= fun result =>
        Act.ofOutcome (read m result)).outcome u

namespace Calls

variable {α β : Type} {m : Message} {read : Message → Value → Outcome α}

theorem call {k : Value → Act Site α} (h : ∀ result v, (k result).outcome v = (read m result, v)) :
    Calls g u (.ok m) read (g.call m.method m.payload >>= k) :=
  Act.outcome_bind_congr fun result v => by rw [h, Act.outcome_ofOutcome]

/-- What must come to something before there is anything to send. -/
theorem bind {o : Outcome β} {ms : β → Outcome Message} {f : β → Act Site α}
    (h : ∀ b, Calls g u (ms b) read (f b)) :
    Calls g u (o >>= ms) read (Act.ofOutcome o >>= f) := by
  unfold Calls
  rw [Act.outcome_ofOutcome_bind]
  cases o with
  | error f => rfl
  | ok b => exact h b

/-- With a message and a time that the call may take, one request goes out. -/
theorem sent {m : Message} {x : Act Site α} (h : Calls g u (.ok m) read x) {timeout : Value}
    (ht : g.timeoutFor m.payload = .ok timeout) : (x.outcome u).2.network.sent =
      u.network.sent ++ [⟨g.baseUrl ++ "/" ++ m.method, timeout, m.payload⟩] := by
  unfold Calls at h
  rw [h]
  dsimp only
  rw [Act.state_bind_ofOutcome, g.call_sent m.method ht]

/-- What comes of an action comes of the result in the reply to its request. -/
theorem of_ok {m : Outcome Message} {x : Act Site α} (h : Calls g u m read x) {a : α} {v : Site}
    (hx : x.outcome u = (.ok a, v)) : ∃ msg result timeout, m = .ok msg ∧
      answered msg.method u.network.next = .ok result ∧ read msg result = .ok a ∧
      v.network.sent =
        u.network.sent ++ [⟨g.baseUrl ++ "/" ++ msg.method, timeout, msg.payload⟩] := by
  cases m with
  | error f =>
    cases h.symm.trans hx
  | ok msg =>
    cases ht : g.timeoutFor msg.payload with
    | error f =>
      have hcall := call_untimed ht msg.method u
      cases (Act.outcome_bind_error hcall).symm.trans (h.symm.trans hx)
    | ok timeout =>
      have hanswer := call_answered ht msg.method u
      have hsent := h.sent ht
      rw [hx] at hsent
      unfold Calls at h
      rw [hx] at h
      dsimp only at h
      rw [Act.outcome_bind] at h
      rcases hout : (g.call msg.method msg.payload).outcome u with ⟨_ | result, w⟩
      · rw [hout] at h
        cases h
      · rw [hout] at h hanswer
        dsimp only at h
        rw [Act.outcome_ofOutcome] at h
        exact ⟨msg, result, timeout, rfl, hanswer.symm, (congrArg Prod.fst h).symm, hsent⟩

/-- What an action yields may be left out. -/
theorem discard {m : Outcome Message} {x : Act Site α} (h : Calls g u m read x) :
    Calls g u m (fun m result => do let _ ← read m result) (do let _ ← x) := by
  unfold Calls at h ⊢
  rw [Act.outcome_bind, h]
  cases m with
  | error f => rfl
  | ok m =>
    dsimp only
    rw [Act.outcome_bind, Act.outcome_bind]
    cases (g.call m.method m.payload).outcome u with
    | mk o v =>
      cases o with
      | error f => rfl
      | ok result =>
        dsimp only
        cases read m result <;> rfl

end Calls

/-- The form in which an item's text and options go out when a post is changed to it. -/
def edition (g : Telegram) (c : Content) (chat : String) (n : Int) : Outcome Message :=
  if c.hasMedia then do
    checkLength maxCaption c.text
    pure ⟨chat, "editMessageCaption",
      .json (g.editFields chat c n ++ [field "caption" (caption c.text)])⟩
  else do
    checkLength maxLength c.text
    pure ⟨chat, "editMessageText", .json (g.editFields chat c n ++ [field "text" c.text])⟩

inductive Operation where
  | verify
  | publish (c : Content)
  | update (postId : Value) (c : Content)
  | delete (postId : Value)
  | reply (target : Target) (text : Value)

namespace Operation

/-- Runs an operation for what it does. -/
def run (g : Telegram) : Operation → Act Site Unit
  | verify => do let _ ← g.verify
  | publish c => do let _ ← g.publish c
  | update postId c => do let _ ← g.update postId c
  | delete postId => do let _ ← g.delete postId
  | reply target text => do let _ ← g.reply target text

/-- What an operation is sent as, or why it cannot be sent. -/
def message (g : Telegram) (files : Files) : Operation → Outcome Message
  | verify => .ok ⟨g.chatId, "getMe", .json []⟩
  | publish c => g.message files c
  | update postId c => do
    let chat ← g.chatOf c
    let n ← postId.toInt
    g.edition c chat n
  | delete postId => do
    let n ← postId.toInt
    pure ⟨g.chatId, "deleteMessage",
      .json [field "chat_id" (.text g.chatId), field "message_id" (.int n)]⟩
  | reply target text => do
    checkLength maxLength text
    let n ← target.number
    pure ⟨g.chatId, "sendMessage", .json
      [field "chat_id" (.text g.chatId), field "text" text, field "reply_to_message_id" (.int n),
       field "parse_mode" g.parseMode]⟩

/-- What an operation makes of the result in the reply. -/
def reading (g : Telegram) : Operation → Message → Value → Outcome Unit
  | verify, _, result => do let _ ← result.entries "get"
  | publish _, m, result | reply _ _, m, result => do let _ ← g.refOf m.chat result
  | update postId _, _, _ => do let _ ← postId.shown
  | delete _, _, _ => .ok ()

theorem calls_update (g : Telegram) (postId : Value) (c : Content) (u : Site) :
    Calls g u ((update postId c).message g u.files) (fun m _ => do
      let shown ← postId.shown
      pure { platform := g.id, id := .text shown, url := .text (postUrl m.chat shown) })
      (g.update postId c) := by
  refine .bind fun chat => .bind fun n => ?_
  have hread : ∀ v : Site, (do
      let shown ← Act.ofOutcome postId.shown
      pure ({ platform := g.id, id := .text shown, url := .text (postUrl chat shown) } :
        PostRef) : Act Site PostRef).outcome v = (do
      let shown ← postId.shown
      pure { platform := g.id, id := .text shown, url := .text (postUrl chat shown) }, v) :=
    fun v => by cases postId.shown <;> rfl
  dsimp only
  unfold edition
  split
  · exact .bind fun _ => .call (m := ⟨chat, _, _⟩) fun _ => hread
  · exact .bind fun _ => .call (m := ⟨chat, _, _⟩) fun _ => hread

theorem calls_delete (g : Telegram) (postId : Value) (u : Site) :
    Calls g u ((delete postId).message g u.files) (fun _ _ => .ok (.bool true))
      (g.delete postId) :=
  .bind fun _ => .call (m := ⟨_, _, _⟩) fun _ _ => rfl

theorem calls_reply (g : Telegram) (target : Target) (text : Value) (u : Site) :
    Calls g u ((reply target text).message g u.files) (fun m => g.refOf m.chat)
      (g.reply target text) :=
  .bind fun _ => .bind fun _ => .call (m := ⟨_, _, _⟩) fun _ v => Act.outcome_ofOutcome v _

/-- An operation is one call, unless there is nothing that could be sent. -/
theorem calls_run (g : Telegram) (op : Operation) (u : Site) :
    Calls g u (op.message g u.files) (op.reading g) (op.run g) := by
  cases op with
  | verify =>
    have h : Calls g u (.ok ⟨g.chatId, "getMe", .json []⟩) (fun _ me => do
        let es ← me.entries "get"
        pure (.bool (Entries.get es "id").truthy)) g.verify :=
      .call (m := ⟨_, _, _⟩) fun me v => by cases me.entries "get" <;> rfl
    have hs := h.discard
    simp only [bind_assoc, pure_bind] at hs
    exact hs
  | publish c =>
    have h : Calls g u (g.message u.files c) (fun m => g.refOf m.chat) (g.publish c) :=
      g.outcome_publish c u
    exact h.discard
  | update postId c =>
    have hs := (calls_update g postId c u).discard
    simp only [bind_assoc, pure_bind] at hs
    exact hs
  | delete postId => exact (calls_delete g postId u).discard
  | reply target text => exact (calls_reply g target text u).discard

/-- The item that an operation sends. -/
def content? : Operation → Option Content
  | publish c | update _ c => some c
  | _ => none

/-- An operation asks for the post with an id. A reply with too long a text does not come to
that. -/
inductive Names : Operation → Value → Prop
  | update (v : Value) (c : Content) : Names (.update v c) v
  | delete (v : Value) : Names (.delete v) v
  | reply (target : Target) (text v : Value) (hid : target.id = .ok v)
    (hfits : ∀ s, text = .text s → s.length ≤ 4096) : Names (.reply target text) v

/-- Texts and media are texts or null, and posts are named by numbers. -/
def IsTyped : Operation → Prop
  | verify => True
  | publish c => c.IsTextual
  | update postId c => (∃ digits, postId.IsNumber digits) ∧ c.IsTextual
  | delete postId => ∃ digits, postId.IsNumber digits
  | reply target text => (∃ v digits, target.id = .ok v ∧ v.IsNumber digits) ∧
      text.isTextual = true

/-- Whether an operation looks into the result in the reply. -/
def looksInside : Operation → Bool
  | verify | publish _ | reply _ _ => true
  | update _ _ | delete _ => false

/-- Why there is nothing to send, although no text is too long. -/
inductive Unsendable (files : Files) : Operation → Prop
  /-- The channel has too long a number in it to be shown. -/
  | channel (op : Operation) (c : Content) (hc : op.content? = some c)
    (hset : (c.option "channel").truthy = true) (h : (c.option "channel").isShowable = false) :
    Unsendable files op
  /-- The number of the post has too many digits to be read. -/
  | number (op : Operation) (v : Value) (digits : Nat) (hv : op.Names v)
    (hdigits : v.IsNumber digits) (h : Text.maxDigits < digits) : Unsendable files op
  /-- The path of the medium is too long to be looked up. -/
  | path (c : Content) (name path : String) (hm : c.medium? = some (name, .text path))
    (hfits : c.plainText.length ≤ 1024) (hlink : isLink path.toList = false)
    (hnull : Files.hasNull path = false) (h : files.find (Files.tidy path) = .tooLong) : Unsendable files (.publish c)

/-- A request goes out. -/
def Sends (g : Telegram) (op : Operation) (u : Site) : Prop :=
  ∃ q, ((op.run g).outcome u).2.network.sent = u.network.sent ++ [q]

/-- What an operation fails of, otherwise than publishing does. -/
inductive Escapes (g : Telegram) (u : Site) (op : Operation) : Prop
  | unsendable (h : op.Unsendable u.files)
  | shapeless (hsent : op.Sends g u) (h : u.network.next.IsShapeless)
  | loose (hsent : op.Sends g u) (hlooks : op.looksInside = true) (h : u.network.next.IsLoose)

/-! ### What can be sent -/

variable {g : Telegram} {files : Files} {c : Content} {op : Operation} {u : Site}

theorem settled_chatOf : Settled (g.chatOf c) ↔
    ¬ ((c.option "channel").truthy = true ∧ (c.option "channel").isShowable = false) := by
  unfold chatOf Value.shown
  split
  · cases hshown : (c.option "channel").isShowable <;>
      simp_all [settled_ok, not_settled_faulty]
  · simp_all [settled_ok]

theorem settled_checkLength {text : Value} (ht : text.isTextual = true) (limit : Nat)
    (hl : (Value.int limit).isShowable = true) : Settled (checkLength (.int limit) text) := by
  rcases Content.checkLength_cases (c := { text := text }) ht limit hl with ⟨-, h⟩ | ⟨-, h⟩
  · exact h ▸ settled_error.2 rfl
  · exact h ▸ settled_ok ()

theorem settled_plain? {path : String} : Settled (files.plain? path) ↔
    ¬ (Files.hasNull path = false ∧ files.find (Files.tidy path) = .tooLong) := by
  cases hnull : Files.hasNull path with
  | true => simp [Files.plain?, hnull, settled_ok]
  | false =>
    cases hfind : files.find (Files.tidy path) <;>
      simp [Files.plain?, hnull, hfind, settled_ok, not_settled_faulty]

theorem settled_mediaPayload {name path chat : String} (hm : c.medium? = some (name, .text path)) :
    Settled (mediaPayload files name (.text path) (g.captionFields chat c)) ↔
      ¬ (isLink path.toList = false ∧ Files.hasNull path = false ∧
        files.find (Files.tidy path) = .tooLong) := by
  rw [mediaPayload_cases files path hm]
  cases hl : isLink path.toList with
  | true => simp [settled_ok]
  | false =>
    have hplain : Settled (files.plain? path) ↔ _ := settled_plain?
    simp only [Bool.false_eq_true, ↓reduceIte, true_and]
    rw [← hplain]
    cases files.plain? path with
    | error f => simp only [settled_error]
    | ok found => cases found <;> simp [settled_ok]

/-- What a post of a medium cannot be sent for, when its channel is known. -/
theorem settled_messageTo (hc : c.IsTextual) (chat : String) :
    Settled (g.messageTo files c chat) ↔ ∀ name path, c.medium? = some (name, .text path) →
      c.plainText.length ≤ 1024 →
      ¬ (isLink path.toList = false ∧ Files.hasNull path = false ∧
        files.find (Files.tidy path) = .tooLong) := by
  have hcaption := settled_checkLength hc.text 1024 (by decide)
  have hfits := Content.checkLength_ok_iff hc.text 1024 (by decide)
  have hlong := settled_checkLength hc.text 4096 (by decide)
  unfold messageTo
  cases hm : c.medium? with
  | none => exact iff_of_true (settled_bind.2 ⟨hlong, fun _ _ => settled_ok _⟩) nofun
  | some m =>
    obtain ⟨name, medium⟩ := m
    obtain ⟨path, rfl⟩ := hc.medium hm
    have hpayload : Settled (mediaPayload files name _ (g.captionFields chat c)) ↔ _ :=
      settled_mediaPayload hm
    dsimp only
    rw [settled_bind]
    constructor
    · rintro ⟨-, h⟩ _ _ ⟨⟩ hle
      exact hpayload.1 (settled_bind.1 (h () (hfits.2 hle))).1
    · refine fun h => ⟨hcaption, fun _ hok => settled_bind.2 ⟨?_, fun _ _ => settled_ok _⟩⟩
      exact hpayload.2 (h _ _ rfl (hfits.1 hok))

theorem settled_edition (hc : c.IsTextual) (chat : String) (n : Int) :
    Settled (g.edition c chat n) := by
  unfold edition
  split
  · exact settled_bind.2 ⟨settled_checkLength hc.text 1024 (by decide), fun _ _ => settled_ok _⟩
  · exact settled_bind.2 ⟨settled_checkLength hc.text 4096 (by decide), fun _ _ => settled_ok _⟩

theorem ok_of_settled_chatOf (h : Settled (g.chatOf c)) : ∃ chat, g.chatOf c = .ok chat := by
  cases hchat : g.chatOf c with
  | ok chat => exact ⟨chat, rfl⟩
  | error f =>
    rw [hchat, settled_error] at h
    unfold chatOf Value.shown at hchat
    split at hchat
    · split at hchat <;> cases hchat
      cases h
    · cases hchat

theorem settled_reply {text : Value} (htext : text.isTextual = true) {target : Target} {v : Value}
    {digits : Nat} (hid : target.id = .ok v) (hv : v.IsNumber digits) :
    Settled ((reply target text).message g files) ↔
      ((∀ s, text = .text s → s.length ≤ 4096) → ¬ Text.maxDigits < digits) := by
  have hcheck := settled_checkLength htext 4096 (by decide)
  have hfits : checkLength maxLength text = .ok () ↔ ∀ s, text = .text s → s.length ≤ 4096 := by
    refine (Content.checkLength_ok_iff (c := { text := text }) htext 4096 (by decide)).trans ?_
    cases text <;> simp_all [Content.plainText, Value.isTextual]
  have hnumber : target.number = v.toInt := by
    rw [Target.number, hid]
    rfl
  rw [message, settled_bind, hnumber, ← hfits]
  have hsend := hv.settled_bind (f := fun n => (pure ⟨g.chatId, "sendMessage", .json
    [field "chat_id" (.text g.chatId), field "text" text, field "reply_to_message_id" (.int n),
     field "parse_mode" g.parseMode]⟩ : Outcome Message)) fun _ => settled_ok _
  exact ⟨fun h hok => hsend.1 (h.2 () hok), fun h => ⟨hcheck, fun _ hok => hsend.2 (h hok)⟩⟩

/-- There is something to send or a text is too long, but for what is named as unsendable. -/
theorem settled_message (hop : op.IsTyped) :
    Settled (op.message g files) ↔ ¬ op.Unsendable files := by
  cases op with
  | verify => exact iff_of_true (settled_ok _) nofun
  | publish c =>
    refine (settled_bind_iff ok_of_settled_chatOf (settled_messageTo hop)).trans ?_
    rw [settled_chatOf]
    constructor
    · rintro ⟨hchat, hto⟩ (⟨_, _, ⟨⟩, hset, hshown⟩ | ⟨_, _, _, ⟨⟩, _, _⟩ |
        ⟨_, name, path, hm, hfits, hlink, hnull, hfind⟩)
      · exact hchat ⟨hset, hshown⟩
      · exact hto name path hm hfits ⟨hlink, hnull, hfind⟩
    · exact fun h => ⟨fun hc => h (.channel _ c rfl hc.1 hc.2), fun name path hm hfits hpath =>
        h (.path c name path hm hfits hpath.1 hpath.2.1 hpath.2.2)⟩
  | update postId c =>
    obtain ⟨⟨digits, hid⟩, hc⟩ := hop
    have hnumber := fun chat => hid.settled_bind (settled_edition (g := g) hc chat)
    refine (settled_bind_iff ok_of_settled_chatOf hnumber).trans ?_
    rw [settled_chatOf]
    constructor
    · rintro ⟨hchat, hlt⟩ (⟨_, _, ⟨⟩, hset, hshown⟩ | ⟨_, _, digits', ⟨⟩, hid', hlt'⟩ | _)
      · exact hchat ⟨hset, hshown⟩
      · exact hlt (hid.unique hid' ▸ hlt')
    · exact fun h => ⟨fun hc => h (.channel _ c rfl hc.1 hc.2), fun hlt =>
        h (.number _ _ _ (.update _ _) hid hlt)⟩
  | delete postId =>
    obtain ⟨digits, hid⟩ := hop
    refine (hid.settled_bind fun _ => settled_ok _).trans (not_congr ⟨fun hlt => ?_, ?_⟩)
    · exact .number _ _ _ (.delete _) hid hlt
    · rintro (⟨_, _, ⟨⟩, _, _⟩ | ⟨_, _, digits', ⟨⟩, hid', hlt'⟩ | _)
      exact hid.unique hid' ▸ hlt'
  | reply target text =>
    obtain ⟨⟨v, digits, hv, hid⟩, htext⟩ := hop
    refine (settled_reply htext hv hid).trans ⟨?_, fun h hfits hlt => ?_⟩
    · rintro h (⟨_, _, ⟨⟩, _, _⟩ | ⟨_, w, digits', hw, hid', hlt⟩ | _)
      cases hw with
      | reply _ _ _ hw hfits =>
        obtain rfl : v = w := Except.ok.inj (hv.symm.trans hw)
        exact h hfits (hid.unique hid' ▸ hlt)
    · exact h (.number _ v digits (.reply target text v hv hfits) hid hlt)

/-! ### What comes of it -/

theorem answered_map {body : String} {es : Entries} (h : Json.parse? body = some (.map es))
    (method : String) (status : Int) :
    answered method (.response status body) =
      if (Entries.get es "ok").truthy then
        .ok (if (Entries.get es "result").truthy then Entries.get es "result" else .map [])
      else fail (.publish (.refused (Entries.get es "description"))) := by
  rw [answered, h]
  rfl

theorem answered_cases (method : String) {r : Reply} (hr : r.IsHttp) :
    (r.IsShapeless ∧ ∃ f, answered method r = faulty f) ∨
    (¬ r.IsShapeless ∧ ¬ r.IsLoose ∧ ∃ p, answered method r = fail (.publish p)) ∨
    (¬ r.IsShapeless ∧ ∃ result, answered method r = .ok result ∧ result.isShowable = true ∧
      (r.IsLoose ↔ ∀ es, result ≠ .map es)) := by
  cases r with
  | unreachable reason => exact .inr (.inl ⟨nofun, nofun, _, rfl⟩)
  | broken f => exact hr.elim
  | response status body =>
    unfold Reply.IsShapeless Reply.IsLoose
    dsimp only
    cases hp : Json.parse? body with
    | none => exact .inr (.inl ⟨by simp, by simp, _, by rw [answered, hp]⟩)
    | some data =>
      cases data with
      | map es =>
        have hshown := Value.isShowable_get (Json.parse?_showable hp) "result"
        rw [answered_map hp]
        cases hok : (Entries.get es "ok").truthy with
        | false => exact .inr (.inl ⟨by simp, by simp [hok], _, rfl⟩)
        | true =>
          refine .inr (.inr ⟨by simp, _, rfl, ?_, ?_⟩)
          · split
            · exact hshown
            · rfl
          · cases hresult : (Entries.get es "result").truthy <;> simp [hok, hresult]
      | _ => exact .inl ⟨⟨_, rfl, nofun⟩, _, by rw [answered, hp]; rfl⟩

/-- A result that is a mapping names the post, or is told to miss its id. -/
theorem settled_refOf (chat : String) {result : Value} (h : result.isShowable = true) :
    Settled (g.refOf chat result) ↔ ¬ ∀ es, result ≠ .map es := by
  cases result with
  | map es =>
    refine iff_of_true ?_ fun hmap => hmap es rfl
    have hshown : (Entries.get es "message_id").shown =
        .ok (Entries.get es "message_id").display := if_pos (Value.isShowable_get h _)
    refine settled_bind.2 ⟨settled_ok es, fun _ hes => ?_⟩
    cases hes
    split
    · exact settled_error.2 rfl
    · rw [hshown]
      exact settled_ok _
  | _ => exact iff_of_false (not_settled_faulty _) fun hmap => hmap nofun

theorem settled_reading (hop : op.IsTyped) (m : Message) {result : Value}
    (h : result.isShowable = true) :
    Settled (op.reading g m result) ↔ ¬ (op.looksInside = true ∧ ∀ es, result ≠ .map es) := by
  have hdiscard : ∀ {α : Type} {o : Outcome α}, Settled (do let _ ← o) ↔ Settled o := fun {α o} =>
    settled_bind.trans (and_iff_left fun _ _ => settled_ok ())
  cases op with
  | verify =>
    refine hdiscard.trans ?_
    cases result with
    | map es => exact iff_of_true (settled_ok es) fun hmap => hmap.2 es rfl
    | _ => exact iff_of_false (not_settled_faulty _) fun hmap => hmap ⟨rfl, nofun⟩
  | update postId c =>
    obtain ⟨⟨_, s, rfl, -⟩, -⟩ := hop
    exact iff_of_true (hdiscard.2 (settled_ok s)) nofun
  | delete postId => exact iff_of_true (settled_ok ()) nofun
  | publish _ | reply _ _ =>
    refine hdiscard.trans ((settled_refOf m.chat h).trans ?_)
    simp [looksInside]

theorem run_of_error {f : Failure} (hm : op.message g u.files = .error f) :
    (op.run g).outcome u = (.error f, u) := by
  have hcalls : Calls g u (op.message g u.files) (op.reading g) (op.run g) := calls_run g op u
  rw [hm] at hcalls
  exact hcalls

theorem run_of_ok {m : Message} (hm : op.message g u.files = .ok m) : (op.run g).outcome u =
    (g.call m.method m.payload >>= fun result =>
      Act.ofOutcome (op.reading g m result)).outcome u := by
  have hcalls : Calls g u (op.message g u.files) (op.reading g) (op.run g) := calls_run g op u
  rw [hm] at hcalls
  exact hcalls

theorem sends_iff (hg : g.IsTimed) : op.Sends g u ↔ ∃ m, op.message g u.files = .ok m := by
  unfold Sends
  cases hm : op.message g u.files with
  | error f =>
    rw [run_of_error hm]
    simp
  | ok m =>
    obtain ⟨timeout, ht⟩ := hg.timeoutFor m.payload
    have hcalls : Calls g u (op.message g u.files) (op.reading g) (op.run g) := calls_run g op u
    rw [hm] at hcalls
    exact iff_of_true ⟨_, hcalls.sent ht⟩ ⟨m, rfl⟩

/-- What is sent settles in a result or a failure of publishing, as far as the reply is looked
into. -/
theorem settled_sent (hop : op.IsTyped) (m : Message) {r : Reply} (hr : r.IsHttp) :
    Settled (answered m.method r >>= op.reading g m) ↔
      ¬ (r.IsShapeless ∨ op.looksInside = true ∧ r.IsLoose) := by
  rcases answered_cases m.method hr with ⟨hshape, f, hf⟩ | ⟨hshape, hloose, p, hp⟩ |
    ⟨hshape, result, hok, hshown, hloose⟩
  · rw [hf]
    exact iff_of_false (not_settled_faulty f) (not_not_intro (.inl hshape))
  · rw [hp]
    exact iff_of_true (settled_error.2 rfl) fun h => h.elim hshape fun h => hloose h.2
  · rw [hok, hloose]
    exact (settled_reading hop m hshown).trans (not_congr (or_iff_right hshape).symm)

theorem run_eq (hg : g.IsTimed) {m : Message} (hm : op.message g u.files = .ok m) :
    ((op.run g).outcome u).1 = answered m.method u.network.next >>= op.reading g m := by
  rw [run_of_ok hm]
  exact call_bind_eq hg _

theorem escapes_iff : op.Escapes g u ↔ op.Unsendable u.files ∨
    (op.Sends g u ∧ (u.network.next.IsShapeless ∨
      op.looksInside = true ∧ u.network.next.IsLoose)) := by
  constructor
  · rintro (h | ⟨hsent, h⟩ | ⟨hsent, hlooks, h⟩)
    · exact .inl h
    · exact .inr ⟨hsent, .inl h⟩
    · exact .inr ⟨hsent, .inr ⟨hlooks, h⟩⟩
  · rintro (h | ⟨hsent, h | ⟨hlooks, h⟩⟩)
    · exact .unsendable h
    · exact .shapeless hsent h
    · exact .loose hsent hlooks h

/-- An operation yields something or fails as publishing does, unless it escapes. -/
theorem settled_iff (hg : g.IsTimed) (hop : op.IsTyped) (hu : u.network.next.IsHttp) :
    Settled ((op.run g).outcome u).1 ↔ ¬ op.Escapes g u := by
  have hmessage : Settled (op.message g u.files) ↔ _ := settled_message hop
  rw [escapes_iff, sends_iff hg]
  cases hm : op.message g u.files with
  | error f =>
    rw [hm, settled_error] at hmessage
    rw [run_of_error hm, settled_error]
    simpa using hmessage
  | ok m =>
    have hsendable : ¬ op.Unsendable u.files := hmessage.1 (hm ▸ settled_ok m)
    rw [run_eq hg hm, settled_sent hop m hu]
    simp [hsendable]

/-- A bot for one channel. -/
def bot : Telegram where
  config := {}
  botToken := .text "T"
  chatId := "@all"
  parseMode := .text "HTML"
  disableNotification := .bool false
  timeout := .int 30

/-- A platform whose next reply has a body. -/
def answering (body : String) : Site := { network := { replies := [.response 200 body] } }

/-- A post of a short text. -/
def greeting : Operation := publish { text := .text "Hi" }

theorem greeting_isTyped : greeting.IsTyped := ⟨rfl, by decide⟩

theorem settled_refusal : bot.IsTimed ∧ greeting.IsTyped ∧
    Settled ((greeting.run bot).outcome (answering "\x7b\"ok\": false\x7d")).1 := by
  have htimed : bot.IsTimed := .inl rfl
  have hchars : "\x7b\"ok\": false\x7d".toList =
      ['\x7b', '"', 'o', 'k', '"', ':', ' ', 'f', 'a', 'l', 's', 'e', '\x7d'] := by simp
  have hbody : Json.parse? "\x7b\"ok\": false\x7d" = some (.map [(.text "ok", .bool false)]) := by
    unfold Json.parse? Json.parseWithin?
    rw [hchars]
    rfl
  refine ⟨htimed, greeting_isTyped, (settled_iff htimed greeting_isTyped ?_).2 ?_⟩
  · exact trivial
  rintro (h | ⟨-, v, hv, hmap⟩ | ⟨-, -, es, hes, hok, -⟩)
  · obtain ⟨_, _, ⟨⟩, hset, -⟩ | ⟨_, _, _, ⟨⟩, _, _⟩ | ⟨_, _, _, hm, _, _, _, _⟩ := h
    · cases hset
    · cases hm
  · exact hmap _ (Option.some.inj (hv.symm.trans hbody))
  · cases Option.some.inj (hes.symm.trans hbody)
    cases hok

/-- All is well with the post, but the result is not one that could name it. -/
theorem not_settled_bare : bot.IsTimed ∧ greeting.IsTyped ∧
    (answering "\x7b\"ok\": true, \"result\": true\x7d").network.next.IsHttp ∧
    ¬ Settled ((greeting.run bot).outcome
      (answering "\x7b\"ok\": true, \"result\": true\x7d")).1 := by
  have hchars : "\x7b\"ok\": true, \"result\": true\x7d".toList =
      ['\x7b', '"', 'o', 'k', '"', ':', ' ', 't', 'r', 'u', 'e', ',', ' ',
        '"', 'r', 'e', 's', 'u', 'l', 't', '"', ':', ' ', 't', 'r', 'u', 'e', '\x7d'] := by simp
  have hbody : Json.parse? "\x7b\"ok\": true, \"result\": true\x7d" =
      some (.map [(.text "ok", .bool true), (.text "result", .bool true)]) := by
    unfold Json.parse? Json.parseWithin?
    rw [hchars]
    rfl
  have hloose : Reply.IsLoose (.response 200 "\x7b\"ok\": true, \"result\": true\x7d") :=
    ⟨_, hbody, rfl, rfl, fun es hes => Value.noConfusion hes⟩
  have hmessage : greeting.message bot {} = .ok ⟨"@all", "sendMessage", .json
    (bot.textFields "@all" { text := .text "Hi" })⟩ := rfl
  refine ⟨.inl rfl, greeting_isTyped, ?_, ?_⟩
  · exact trivial
  · rw [run_eq (.inl rfl) hmessage, settled_sent greeting_isTyped _ (by exact trivial)]
    exact not_not_intro (.inr ⟨rfl, hloose⟩)

end Operation

end Telegram

end Syndicate

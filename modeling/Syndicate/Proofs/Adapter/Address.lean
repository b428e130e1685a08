import Syndicate.Proofs.Adapter.Requests
import Syndicate.Proofs.Text

/-! The way back to a post on a channel. The number that the platform gave to a post becomes a text
in its id, and is read from there again when the post is edited, deleted or replied to; the channel
is found anew from the options and the settings. Both come out as they were. -/

namespace Syndicate

/-- What shows an integer is read as that integer. -/
theorem Value.toInt_of_shown {m : Int} {s : String} (h : (Value.int m).shown = .ok s) :
    (Value.text s).toInt = .ok m := by
  rw [Value.shown] at h
  split at h
  · rename_i hshow
    obtain rfl : toString m = s := Except.ok.inj h
    have hdigits : (toString m.natAbs).length ≤ Text.maxDigits := of_decide_eq_true hshow
    rw [Value.toInt, Text.integer?_toString hdigits]
  · cases h

/-- The body of a reply has a result in which the post has a number. -/
def Reply.Numbers (m : Int) : Reply → Prop
  | .response _ body => ∃ es fs, Json.parse? body = some (.map es) ∧
      Entries.get es "result" = .map fs ∧ Entries.get fs "message_id" = .int m
  | _ => False

/-- One request goes out, to a channel. -/
def Reaches (chat : String) (u v : Site) : Prop :=
  ∃ r : Request, v.network.sent = u.network.sent ++ [r] ∧
    Entries.get? r.payload.fields "chat_id" = some (.text chat)

/-- One request goes out, to a channel and about a post there. -/
def Points (chat key : String) (m : Int) (u v : Site) : Prop :=
  ∃ r : Request, v.network.sent = u.network.sent ++ [r] ∧
    Entries.get? r.payload.fields "chat_id" = some (.text chat) ∧
    Entries.get? r.payload.fields key = some (.int m)

namespace Telegram

variable {g : Telegram} {c : Content} {ref : PostRef} {chat method : String} {m : Int}
  {u v : Site}

/-! ### Posts -/

theorem result_of_numbers {r : Reply} {result : Value} (hm : r.Numbers m)
    (h : answered method r = .ok result) :
    ∃ fs, result = .map fs ∧ Entries.get fs "message_id" = .int m := by
  cases r with
  | response status body =>
    obtain ⟨es, fs, hbody, hresult, hid⟩ := hm
    refine ⟨fs, ?_, hid⟩
    have hset : (Value.map fs).truthy = true := by
      cases fs with
      | nil => cases hid
      | cons e fs => rfl
    simp only [answered, hbody] at h
    obtain ⟨es', hes, h⟩ := ok_of_bind h
    cases hes
    rw [hresult, if_pos hset] at h
    split at h
    · exact (Except.ok.inj h).symm
    · cases h
  | _ => cases hm

theorem refOf_number {fs : Entries} (hid : Entries.get fs "message_id" = .int m)
    (h : g.refOf chat (.map fs) = .ok ref) : ∃ s, (Value.int m).shown = .ok s ∧
      ref = ⟨g.id, .text s, .text (postUrl chat s), .map fs⟩ := by
  obtain ⟨es, hes, h⟩ := ok_of_bind h
  cases hes
  rw [hid] at h
  obtain ⟨s, hs, h⟩ := ok_of_bind h
  exact ⟨s, hs, (Except.ok.inj h).symm⟩

/-- A post goes to the channel that its item asks for. -/
theorem message_chat {files : Files} {msg : Message} (h : g.message files c = .ok msg) :
    g.chatOf c = .ok msg.chat ∧
      Entries.get? msg.payload.fields "chat_id" = some (.text msg.chat) := by
  obtain ⟨chat, hchat, h⟩ := ok_of_bind h
  unfold messageTo at h
  split at h
  · rename_i name medium hm
    obtain ⟨_, -, h⟩ := ok_of_bind h
    obtain ⟨payload, hpayload, h⟩ := ok_of_bind h
    cases h
    have hfields : Entries.get? (g.captionFields chat c) "chat_id" = some (.text chat) :=
      (g.carries_append c chat _).chat
    refine ⟨hchat, ?_⟩
    cases medium with
    | text path =>
      rw [mediaPayload_cases files path hm] at hpayload
      split at hpayload <;> cases hpayload
      · simp [Payload.fields, hfields]
      · rw [Payload.fields, Entries.get?_map, hfields]
        rfl
    | _ => cases hpayload
  · obtain ⟨_, -, h⟩ := ok_of_bind h
    cases h
    exact ⟨hchat, (g.carries_append c chat _).chat⟩

/-! ### The way back -/

theorem edition_points {n : Int} {msg : Message} (h : g.edition c chat n = .ok msg) :
    msg.chat = chat ∧ Entries.get? msg.payload.fields "chat_id" = some (.text chat) ∧
      Entries.get? msg.payload.fields "message_id" = some (.int n) := by
  unfold edition at h
  split at h <;> obtain ⟨_, -, h⟩ := ok_of_bind h <;> cases h <;>
    simp [Payload.fields, editFields, field]

/-- What calls come to with the id of a post: they go to the channel where it was posted, with the
number that it got there. Deletions and replies do if its item had no channel of its own. -/
structure Returns (g : Telegram) (c : Content) (ref : PostRef) (chat : String) (m : Int) :
    Prop where
  update : ∀ (c' : Content) (ref' : PostRef) (u v : Site),
    c'.option "channel" = c.option "channel" → (g.update ref.id c').outcome u = (.ok ref', v) →
      Points chat "message_id" m u v ∧
      ref'.platform = ref.platform ∧ ref'.id = ref.id ∧ ref'.url = ref.url
  delete : (c.option "channel").truthy = false → ∀ u,
    Points chat "message_id" m u ((g.delete ref.id).outcome u).2
  reply : (c.option "channel").truthy = false → ∀ (t : Target) (text : Value) (u : Site),
    t.id = .ok ref.id → match checkLength maxLength text with
      | .error f => (g.reply t text).outcome u = (.error f, u)
      | .ok _ => Points chat "reply_to_message_id" m u ((g.reply t text).outcome u).2

theorem chatOf_congr {c' : Content} (h : c'.option "channel" = c.option "channel") :
    g.chatOf c' = g.chatOf c := by
  rw [chatOf, chatOf, h]

/-- With the number of a post as its id, a call finds the way back. -/
theorem returns_of_number {s : String} (hs : (Value.int m).shown = .ok s)
    (hchat : g.chatOf c = .ok chat) (raw : Value) :
    g.Returns c ⟨g.id, .text s, .text (postUrl chat s), raw⟩ chat m := by
  have hint := Value.toInt_of_shown hs
  have hhome : (c.option "channel").truthy = false → chat = g.chatId := fun hunset => by
    rw [chatOf, hunset] at hchat
    exact (Except.ok.inj hchat).symm
  refine ⟨fun c' ref' u v hc hok => ?_, fun hunset u => ?_, fun hunset t text u ht => ?_⟩
  · obtain ⟨msg, result, timeout, hmsg, -, hread, hsent⟩ :=
      (Operation.calls_update g (.text s) c' u).of_ok hok
    obtain ⟨chat', hchat', hmsg⟩ := ok_of_bind hmsg
    obtain ⟨n, hn, hmsg⟩ := ok_of_bind hmsg
    cases hn.symm.trans hint
    cases hchat'.symm.trans ((chatOf_congr hc).trans hchat)
    obtain ⟨rfl, hid, hnumber⟩ := edition_points hmsg
    cases hread
    exact ⟨⟨_, hsent, hid, hnumber⟩, rfl, rfl, rfl⟩
  · obtain rfl := hhome hunset
    have hcalls := Operation.calls_delete g (.text s) u
    rw [Operation.message, hint] at hcalls
    exact ⟨_, hcalls.sent rfl, by simp [Payload.fields, field], by simp [Payload.fields, field]⟩
  · obtain rfl := hhome hunset
    have hcalls := Operation.calls_reply g t text u
    have hnumber : t.number = .ok m := by rw [Target.number, ht]; exact hint
    rw [Operation.message] at hcalls
    cases hcheck : checkLength maxLength text with
    | error f =>
      rw [hcheck] at hcalls
      exact hcalls
    | ok _ =>
      rw [hcheck, hnumber] at hcalls
      exact ⟨_, hcalls.sent rfl, by simp [Payload.fields, field], by simp [Payload.fields, field]⟩

/-- A post that the platform gave a number to is found again by its id. -/
theorem publish_returns (hpost : (g.publish c).outcome u = (.ok ref, v))
    (hm : u.network.next.Numbers m) : ∃ chat, Reaches chat u v ∧ g.Returns c ref chat m := by
  have hcalls : Calls g u (g.message u.files c) (fun m => g.refOf m.chat) (g.publish c) :=
    g.outcome_publish c u
  obtain ⟨msg, result, timeout, hmsg, hanswer, href, hsent⟩ := hcalls.of_ok hpost
  obtain ⟨hchat, hid⟩ := message_chat hmsg
  obtain ⟨fs, rfl, hnumber⟩ := result_of_numbers hm hanswer
  obtain ⟨s, hs, rfl⟩ := refOf_number hnumber href
  exact ⟨msg.chat, ⟨_, hsent, hid⟩, returns_of_number hs hchat _⟩

/-- The body of a reply that gives a post the number 42. -/
def numbering : String := "\x7b\"ok\": true, \"result\": \x7b\"message_id\": 42\x7d\x7d"

theorem parse?_numbering : Json.parse? numbering = some (.map [(.text "ok", .bool true),
    (.text "result", .map [(.text "message_id", .int 42)])]) := by
  have hchars : numbering.toList =
      ['\x7b', '"', 'o', 'k', '"', ':', ' ', 't', 'r', 'u', 'e', ',', ' ',
        '"', 'r', 'e', 's', 'u', 'l', 't', '"', ':', ' ', '\x7b', '"', 'm', 'e', 's', 's', 'a', 'g',
        'e', '_', 'i', 'd', '"', ':', ' ', '4', '2', '\x7d', '\x7d'] := by simp [numbering]
  unfold Json.parse? Json.parseWithin?
  rw [hchars]
  rfl

theorem greeting_returns : ∃ ref v,
    (Operation.bot.publish { text := .text "Hi" }).outcome (Operation.answering numbering) =
      (.ok ref, v) ∧
    (Operation.answering numbering).network.next.Numbers 42 ∧
    ∃ chat, Reaches chat (Operation.answering numbering) v ∧
      Operation.bot.Returns { text := .text "Hi" } ref chat 42 := by
  have hmessage : Operation.bot.message {} { text := .text "Hi" } = .ok ⟨"@all", "sendMessage",
    .json (Operation.bot.textFields "@all" { text := .text "Hi" })⟩ := rfl
  have hpost : ((Operation.bot.publish { text := .text "Hi" }).outcome
      (Operation.answering numbering)).1 = .ok ⟨.text "telegram", .text "42",
        .text "https://t.me/all/42", .map [(.text "message_id", .int 42)]⟩ := by
    have hanswer : answered "sendMessage" (.response 200 numbering) =
        .ok (.map [(.text "message_id", .int 42)]) := by
      rw [answered, parse?_numbering]
      rfl
    rw [outcome_publish, show (Operation.answering numbering).files = {} from rfl, hmessage]
    dsimp only
    rw [call_bind_eq (.inl rfl)]
    show answered "sendMessage" (.response 200 numbering) >>= Operation.bot.refOf "@all" = _
    rw [hanswer]
    rfl
  have hnumbers : (Operation.answering numbering).network.next.Numbers 42 :=
    ⟨_, _, parse?_numbering, rfl, rfl⟩
  rcases hok : (Operation.bot.publish { text := .text "Hi" }).outcome
    (Operation.answering numbering) with ⟨o, v⟩
  rw [hok] at hpost
  obtain rfl := hpost
  exact ⟨_, v, rfl, hnumbers, publish_returns hok hnumbers⟩

end Telegram

end Syndicate

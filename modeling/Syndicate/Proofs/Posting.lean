import Syndicate.Proofs.Adapter.Telegram
import Syndicate.Proofs.Dispatch.World
import Syndicate.Proofs.Registry
import Syndicate.Proofs.Routing

/-! From a rule to the wire: what is sent when a task that was made for an item is published through
a channel adapter of the registry. -/

namespace Syndicate

open Telegram (Message)

/-! ### Publishing a task -/

namespace World

variable {w : World} {t : Task} {g : Telegram} {clock : Nat}

/-- A task is published as a message, which is one request, or fails without any. -/
def Sends (w : World) (t : Task) (clock : Nat) (g : Telegram) (m : Outcome Message) : Prop :=
  match m with
  | .error f => ((publish t clock).outcome w).1 = .error f ∧
    ((publish t clock).outcome w).2.site.network.sent = w.site.network.sent
  | .ok m => ∃ timeout, g.timeoutFor m.payload = .ok timeout ∧
    ((publish t clock).outcome w).2.site.network.sent = w.site.network.sent ++
      [⟨g.baseUrl ++ "/" ++ m.method, timeout, m.payload⟩]

/-- Publishing a task is one request, or it fails for the length of the text without any. -/
def PostsOnce (w : World) (t : Task) (clock : Nat) : Prop :=
  ((∃ limit n, ((publish t clock).outcome w).1 = fail (.tooLong limit n)) ∧
    ((publish t clock).outcome w).2.site.network.sent = w.site.network.sent) ∨
  ∃ q, ((publish t clock).outcome w).2.site.network.sent = w.site.network.sent ++ [q]

theorem sends_message (clock : Nat) (hw : w.adapters.lookup t.adapter = some (.telegram g))
    (hg : (Adapter.telegram g).IsTimed) :
    w.Sends t clock g (g.message w.site.files t.content) := by
  have hadapter : w.adapter t.adapter = .ok (.telegram g) := by rw [adapter, hw]
  have hpublish : (Station.publish clock t.content).outcome ⟨.telegram g, w.site⟩ =
      (((g.publish t.content).outcome w.site).1,
        ⟨.telegram g, ((g.publish t.content).outcome w.site).2⟩) := by
    rw [Station.publish, Act.outcome_bind_ok (Act.outcome_get _)]
    exact Act.outcome_within _ _ _ _
  have hpost := outcome_post w t clock
  rw [outcome_at_ok hadapter, hpublish] at hpost
  obtain ⟨x, hx⟩ := hg
  unfold Sends
  rw [publish_of_post hpost]
  cases hm : g.message w.site.files t.content with
  | error f =>
    rw [Telegram.outcome_publish, hm]
    exact ⟨rfl, rfl⟩
  | ok m =>
    have htimeout : ∃ timeout, g.timeoutFor m.payload = .ok timeout := by
      unfold Telegram.timeoutFor
      split
      · exact ⟨_, rfl⟩
      · rw [hx]
        exact ⟨_, rfl⟩
    obtain ⟨timeout, ht⟩ := htimeout
    exact ⟨timeout, ht, Telegram.publish_sent hm ht⟩

end World

/-! ### From a rule to the wire -/

/-- The methods that post a medium, by the field of the medium. -/
def methods : List (String × String) :=
  [("photo", "sendPhoto"), ("video", "sendVideo"), ("document", "sendDocument"),
   ("audio", "sendAudio")]

/-- Where an item goes: to the channel of its destination if there is one, else to its own, else to
the configured one. -/
def Telegram.destined (g : Telegram) (c : Content) (channel : Value) : Outcome String :=
  if channel.truthy then channel.shown
  else if (c.option "channel").truthy then (c.option "channel").shown
  else .ok g.chatId

/-- A task with another value in one of the fields of its item. -/
def Task.withField (t : Task) (name : String) (v : Value) : Task :=
  { t with content := t.content.withField name v }

/-- What a task for an item is published as. -/
inductive World.Posts (w : World) (t : Task) (clock : Nat) (g : Telegram) (c : Content) :
    Outcome Message → Prop
  /-- A channel with too long a number in it cannot be shown. -/
  | unshown (hchannel : g.destined c t.channel = faulty .tooManyDigits) :
    Posts w t clock g c (faulty .tooManyDigits)
  | tooLong (limit : Nat) (hlimit : limit = if c.hasMedia then 1024 else 4096)
    (hlength : limit < c.plainText.length) :
    Posts w t clock g c (fail (.tooLong (.int limit) (.int c.plainText.length)))
  /-- A path that is too long to be looked up. -/
  | lost (name path : String) (hmedium : c.medium? = some (name, .text path))
    (hlink : Telegram.isLink path.toList = false)
    (hpath : w.site.files.find (Files.tidy path) = .tooLong) :
    Posts w t clock g c (faulty (.system "File name too long"))
  | text (chat : String) (es : Entries) (hchannel : g.destined c t.channel = .ok chat)
    (hmedium : c.hasMedia = false) (hlength : c.plainText.length ≤ 4096)
    (hfilled : Text.trim c.plainText.toList ≠ []) (hcarries : g.Carries c chat es)
    (htext : Entries.get? es "text" = some (.text c.plainText)) :
    Posts w t clock g c (.ok ⟨chat, "sendMessage", .json es⟩)
  | link (chat name path method : String) (es : Entries)
    (hchannel : g.destined c t.channel = .ok chat)
    (hmedium : c.medium? = some (name, .text path)) (hmethod : (name, method) ∈ methods)
    (hlength : c.plainText.length ≤ 1024) (hcarries : g.Carries c chat es)
    (hcaption : Entries.get? es "caption" = some (.text c.plainText))
    (hlink : Telegram.isLink path.toList = true ∨ w.site.files.plain? path = .ok none) :
    Posts w t clock g c (.ok ⟨chat, method, .json (es ++ [(.text name, .text path)])⟩)
  /-- A file is uploaded with what a link in its place would carry. -/
  | upload (chat name path method : String) (es : Entries) (bytes : List UInt8)
    (hchannel : g.destined c t.channel = .ok chat)
    (hmedium : c.medium? = some (name, .text path)) (hmethod : (name, method) ∈ methods)
    (hlength : c.plainText.length ≤ 1024) (hcarries : g.Carries c chat es)
    (hcaption : Entries.get? es "caption" = some (.text c.plainText))
    (hlink : Telegram.isLink path.toList = false)
    (hfile : w.site.files.plain? path = .ok (some bytes))
    (hlinked : ∀ url, Telegram.isLink url.toList = true →
      w.Sends (t.withField name (.text url)) clock g
        (.ok ⟨chat, method, .json (es ++ [(.text name, .text url)])⟩)) :
    Posts w t clock g c (.ok ⟨chat, method, .form
      (es.map fun e => (e.1, Telegram.formValue e.2)) name (Files.lastName path)
      (Text.ofBytes bytes)⟩)

/-- Whether the channel that an item goes to can be shown and the path of its medium looked up. -/
structure Telegram.Reaches (g : Telegram) (files : Files) (c : Content) (channel : Value) :
    Prop where
  channel : g.destined c channel ≠ faulty .tooManyDigits
  medium : ∀ name path, c.medium? = some (name, .text path) → isLink path.toList = false →
    files.find (Files.tidy path) ≠ .tooLong

theorem World.Posts.once {w : World} {t : Task} {clock : Nat} {g : Telegram} {c : Content}
    {m : Outcome Message} (h : w.Posts t clock g c m) (hs : w.Sends t clock g m)
    (hr : g.Reaches w.site.files c t.channel) : w.PostsOnce t clock := by
  cases h with
  | unshown hchannel => exact absurd hchannel hr.channel
  | lost name path hmedium hlink hpath => exact absurd hpath (hr.medium name path hmedium hlink)
  | tooLong limit _ _ => exact .inl ⟨⟨_, _, hs.1⟩, hs.2⟩
  | text | link | upload =>
    obtain ⟨_, -, hsent⟩ := hs
    exact .inr ⟨_, hsent⟩

/-! ### The content of a task -/

section Content

variable {c : Content} {a : Assignment} {g : Telegram}

theorem Assignment.body_contentOf (a : Assignment) (c : Content) :
    (a.contentOf c).toBody = c.toBody := by
  unfold contentOf
  split <;> rfl

theorem Assignment.option?_contentOf (a : Assignment) (c : Content) {key : String}
    (h : key ≠ "channel") : (a.contentOf c).option? key = c.option? key := by
  unfold contentOf
  split
  · exact Entries.get?_put_of_ne c.options a.channel h
  · rfl

/-- A post goes to the channel that the item goes to. -/
theorem Telegram.chatOf_contentOf (g : Telegram) (a : Assignment) (c : Content) :
    g.chatOf (a.contentOf c) = g.destined c a.channel := by
  unfold chatOf destined Assignment.contentOf
  by_cases hc : a.channel.truthy = true
  · have hset : (c.setOption "channel" a.channel).option "channel" = a.channel := by
      rw [Content.option, Entries.get, Content.setOption, Entries.get?_put_same]
      rfl
    rw [if_pos hc, if_pos hc, hset, if_pos hc]
  · rw [if_neg hc, if_neg hc]

/-- The fields that a post carries for the content of a task it carries for the item. -/
theorem Telegram.Carries.of_contentOf {chat : String} {es : Entries}
    (h : g.Carries (a.contentOf c) chat es) : g.Carries c chat es where
  chat := h.chat
  parseMode := by rw [h.parseMode, a.option?_contentOf c (by decide)]
  disableNotification := by rw [h.disableNotification, a.option?_contentOf c (by decide)]

theorem Value.shown_cases (v : Value) :
    v.shown = faulty .tooManyDigits ∨ ∃ s, v.shown = .ok s := by
  unfold shown
  split
  · exact .inr ⟨_, rfl⟩
  · exact .inl rfl

theorem Telegram.destined_cases (g : Telegram) (c : Content) (channel : Value) :
    g.destined c channel = faulty .tooManyDigits ∨ ∃ chat, g.destined c channel = .ok chat := by
  unfold destined
  split
  · exact channel.shown_cases
  · split
    · exact (c.option "channel").shown_cases
    · exact .inr ⟨_, rfl⟩

/-- An accepted item without media has a text that is not blank. -/
theorem filled_of_accepted {v : Verdict} (ht : c.text.isTextual = true)
    (h : Validator.body c = .ok v) (hv : v.valid = true) (hm : c.hasMedia = false) :
    Text.trim c.plainText.toList ≠ [] := by
  obtain ⟨filled, hfilled, h⟩ := ok_of_bind h
  have htrue : filled = true := by
    cases h
    cases filled with
    | true => rfl
    | false => simp [Validator.ofErrors, hm] at hv
  rw [htrue] at hfilled
  unfold Content.plainText
  cases htext : c.text with
  | null => simp [htext, Validator.hasText, Value.truthy] at hfilled
  | text s =>
    by_cases hs : s = ""
    · simp [htext, hs, Validator.hasText, Value.truthy] at hfilled
    · simpa [htext, hs, Validator.hasText, Value.truthy] using hfilled
  | _ => simp [htext, Value.isTextual] at ht

theorem mem_methods {v : Value} {name : String} (h : c.medium? = some (name, v)) :
    (name, Telegram.mediaMethod name) ∈ methods := by
  rcases Content.name_of_medium? h with rfl | rfl | rfl | rfl <;>
    simp [methods, Telegram.mediaMethod]

end Content

namespace Routing

variable {known : String → Bool} {now : Instant} {validator : Validator} {s : Source}
  {rules : Outcome (List RuleEntry)}

/-- Tasks are those of the item that was accepted. -/
theorem tasks_of_ok {ts : List Task}
    (h : (tasks known now validator s rules).outcome = .ok ts) :
    ∃ c, ∃ as : List Assignment, s.content = .ok c ∧ ts = as.map (Assignment.task c) := by
  cases ha : accepted validator s with
  | error f =>
    rw [tasks_refused ha] at h
    cases h
  | ok c =>
    obtain ⟨item, hs, haccepted⟩ := ok_of_bind ha
    obtain ⟨verdict, -, haccepted⟩ := ok_of_bind haccepted
    obtain rfl : item = c := by
      split at haccepted <;> cases haccepted
      rfl
    rw [tasks_accepted ha] at h
    cases rules with
    | error f => cases h
    | ok es =>
      dsimp only at h
      rw [tasked_eq] at h
      cases has : (assignRules known now item es).outcome with
      | error f => rw [has] at h; cases h
      | ok as =>
        rw [has] at h
        exact ⟨item, as, hs, (Except.ok.inj h).symm⟩

end Routing

section Posts

variable {w : World} {clock : Nat} {g : Telegram} {c : Content} {a : Assignment} {chat : String}

theorem Assignment.medium?_contentOf (a : Assignment) (c : Content) :
    (a.contentOf c).medium? = c.medium? := by
  rw [Content.medium?, Content.medium?, a.body_contentOf]

/-- A task is sent with a link as it is sent with a file, apart from the medium itself. -/
theorem World.sends_link {t : Task} {name url : String} {v : Value} (clock : Nat)
    (hw : w.adapters.lookup t.adapter = some (.telegram g)) (hg : (Adapter.telegram g).IsTimed)
    (hchat : g.chatOf t.content = .ok chat) (hm : t.content.medium? = some (name, v))
    (hfits : checkLength Telegram.maxCaption t.content.text = .ok ())
    (hurl : Telegram.isLink url.toList = true) :
    w.Sends (t.withField name (.text url)) clock g (.ok ⟨chat, Telegram.mediaMethod name,
      .json (g.captionFields chat t.content ++ [(.text name, .text url)])⟩) := by
  have hsends := sends_message (t := t.withField name (.text url)) clock hw hg
  have hto : g.chatOf (t.withField name (.text url)).content = .ok chat := hchat
  have hmessage := Telegram.messageTo_link (g := g) hm hfits hurl w.site.files chat
  rw [Telegram.message_eq hto] at hsends
  exact hmessage ▸ hsends

section Accepted

variable (hc : c.IsTextual) (hchat : g.destined c a.channel = .ok chat)
include hc hchat

/-- An item without media is published as its text. -/
theorem World.posts_text {v : Verdict} (hv : Validator.body c = .ok v) (hvalid : v.valid = true)
    (hm : c.medium? = none) :
    w.Posts (a.task c) clock g c (g.messageTo w.site.files (a.contentOf c) chat) := by
  have hmedia := Content.medium?_eq_none hm
  have hfilled := filled_of_accepted hc.text hv hvalid hmedia
  have hlimit : Telegram.maxLength = .int (4096 : Nat) := rfl
  rw [Telegram.messageTo, a.medium?_contentOf, hm, a.body_contentOf, hlimit]
  dsimp only
  rcases c.checkLength_cases hc.text 4096 (by decide) with ⟨hlt, hcheck⟩ | ⟨hle, hcheck⟩
  · rw [hcheck]
    exact .tooLong 4096 (by rw [hmedia]; rfl) hlt
  · rw [hcheck]
    have htext : c.text = .text c.plainText := by
      refine Content.text_eq hc.text fun hp => hfilled ?_
      rw [hp]
      rfl
    refine .text chat _ hchat hmedia hle hfilled (g.carries_append _ chat _).of_contentOf ?_
    rw [Telegram.get?_textFields, a.body_contentOf, htext]

/-- An item with media is published as the first of them, with its text for a caption. -/
theorem World.posts_medium (hw : w.adapters.lookup a.adapter = some (.telegram g))
    (hg : (Adapter.telegram g).IsTimed) {name : String} {v : Value}
    (hm : c.medium? = some (name, v)) :
    w.Posts (a.task c) clock g c (g.messageTo w.site.files (a.contentOf c) chat) := by
  have hmedia := Content.hasMedia_of_medium? hm
  have hlimit : Telegram.maxCaption = .int (1024 : Nat) := rfl
  have htext : (a.contentOf c).text = c.text := by rw [a.body_contentOf]
  have hmedium : (a.contentOf c).medium? = some (name, v) := (a.medium?_contentOf c).trans hm
  obtain ⟨path, rfl⟩ := hc.medium hm
  rw [Telegram.messageTo, hmedium, htext, hlimit]
  dsimp only
  rcases c.checkLength_cases hc.text 1024 (by decide) with ⟨hlt, hcheck⟩ | ⟨hle, hcheck⟩
  · rw [hcheck]
    exact .tooLong 1024 (by rw [hmedia]; rfl) hlt
  · have hcarries : g.Carries c chat (g.captionFields chat (a.contentOf c)) :=
      (g.carries_append _ chat _).of_contentOf
    have hcaption : Entries.get? (g.captionFields chat (a.contentOf c)) "caption" =
        some (.text c.plainText) := by
      rw [Telegram.get?_captionFields, htext, Telegram.caption_textual hc.text]
    rw [hcheck, Telegram.mediaPayload_cases w.site.files path hmedium]
    cases hlink : Telegram.isLink path.toList with
    | true =>
      exact .link chat name path _ _ hchat hm (mem_methods hm) hle hcarries hcaption (.inl hlink)
    | false =>
      simp only [↓reduceIte, Bool.false_eq_true]
      cases hfile : w.site.files.plain? path with
      | error f =>
        obtain ⟨hpath, rfl⟩ := Files.plain?_error hfile
        exact .lost name path hm hlink hpath
      | ok found =>
        cases found with
        | none =>
          exact .link chat name path _ _ hchat hm (mem_methods hm) hle hcarries hcaption
            (.inr hfile)
        | some bytes =>
          have hto : g.chatOf (a.contentOf c) = .ok chat := (g.chatOf_contentOf a c).trans hchat
          have hfits : checkLength Telegram.maxCaption (a.contentOf c).text = .ok () := by
            rw [htext, hlimit, hcheck]
          exact .upload chat name path _ _ bytes hchat hm (mem_methods hm) hle hcarries hcaption
            hlink hfile fun _ hurl =>
              World.sends_link clock hw hg hto hmedium hfits hurl

end Accepted

/-- What a task for an item is published as, if the item is one that is accepted. -/
theorem World.posts_message (hc : c.IsTextual) {v : Verdict} (hv : Validator.body c = .ok v)
    (hvalid : v.valid = true) (hw : w.adapters.lookup a.adapter = some (.telegram g))
    (hg : (Adapter.telegram g).IsTimed) :
    w.Posts (a.task c) clock g c (g.message w.site.files (a.contentOf c)) := by
  have hto := g.chatOf_contentOf a c
  rcases g.destined_cases c a.channel with hnone | ⟨chat, hchat⟩
  · rw [Telegram.message, hto, hnone]
    exact .unshown hnone
  · rw [Telegram.message_eq (hto.trans hchat)]
    cases hm : c.medium? with
    | none => exact posts_text hc hchat hv hvalid hm
    | some m => exact posts_medium hc hchat hw hg hm

end Posts

/-- A task whose medium has too long a name fails without a request, whatever its text. -/
theorem World.not_postsOnce_longName {w : World} {t : Task} {g : Telegram} {cs : List Char}
    {chat name : String} (clock : Nat)
    (hw : w.adapters.lookup t.adapter = some (.telegram g)) (hg : (Adapter.telegram g).IsTimed)
    (hchat : g.chatOf t.content = .ok chat)
    (hm : t.content.medium? = some (name, .text (String.ofList cs)))
    (hcheck : checkLength Telegram.maxCaption t.content.text = .ok ()) (hslash : '/' ∉ cs)
    (hnull : Char.ofNat 0 ∉ cs) (hlong : Files.maxName < (String.ofList cs).utf8ByteSize) :
    ¬ w.PostsOnce t clock := by
  have hsends := sends_message clock hw hg
  rw [Telegram.message_longName w.site.files hchat hm hcheck hslash hnull hlong] at hsends
  obtain ⟨hfailed, hsent⟩ := hsends
  rintro (⟨⟨limit, n, htooLong⟩, -⟩ | ⟨q, hq⟩)
  · cases hfailed.symm.trans htooLong
  · rw [hsent] at hq
    simp at hq

/-- What an accepted item is routed to is posted as the item asks for, in one request, or not at
all. -/
theorem Routing.tasks_posted {token : Option String} {config : Value} {lines : List Record}
    {r : Registry} {known : String → Bool} {now : Instant} {validator : Validator} {s : Source}
    {rules : Outcome (List RuleEntry)} {c : Content} {v : Verdict} {ts : List Task} {t : Task}
    {w : World} {g : Telegram} (hr : Registry.build token config = (lines, .ok r))
    (hg : r.lookup t.adapter = some (.telegram g))
    (hw : w.adapters.lookup t.adapter = r.lookup t.adapter)
    (hs : s.content = .ok c) (hc : c.IsTextual) (hv : Validator.body c = .ok v)
    (hvalid : v.valid = true)
    (hts : (tasks known now validator s rules).outcome = .ok ts) (ht : t ∈ ts) (clock : Nat) :
    ∃ m, w.Posts t clock g c m ∧ w.Sends t clock g m ∧
      (g.Reaches w.site.files c t.channel → w.PostsOnce t clock) := by
  obtain ⟨item, as, hitem, rfl⟩ := tasks_of_ok hts
  obtain rfl : item = c := Except.ok.inj (hitem.symm.trans hs)
  obtain ⟨a, -, rfl⟩ := List.mem_map.1 ht
  have htimed := Registry.isTimed_of_lookup (Registry.build_isTimed hr) hg
  have hposts : w.Posts _ clock g _ _ := World.posts_message hc hv hvalid (hw.trans hg) htimed
  have hsends := World.sends_message clock (hw.trans hg) htimed
  exact ⟨_, hposts, hsends, hposts.once hsends⟩


/-- The settings of an adapter for a channel. -/
def outletEntries : Entries :=
  [(.text "type", .text "telegram"), (.text "bot_token", .text "T"),
   (.text "chat_id", .text "@all"), (.text "timeout", .float Binary64.zero)]

def outlet : Telegram where
  config := ⟨.text "news", .null, []⟩
  botToken := .text "T"
  chatId := "@all"
  parseMode := .text "HTML"
  disableNotification := .bool false
  timeout := .float Binary64.zero

def outletConfig : Value := .map [(.text "adapters", .map [(.text "news", .map outletEntries)])]

theorem build_outletConfig : Registry.build none outletConfig =
    ([⟨Registry.source, .info, "Registered adapter 'news' (telegram)."⟩],
      .ok [("news", .telegram outlet)]) := by
  have hlower : Text.lower "telegram" = "telegram" := by decide +kernel
  have hkind : Registry.kindOf (.text "news") outletEntries = .ok "telegram" :=
    congrArg Except.ok hlower
  have hadd : Registry.addEntry none [] (.text "news") (.map outletEntries) =
      .ok ([("news", .telegram outlet)],
        some ⟨Registry.source, .info, "Registered adapter 'news' (telegram)."⟩) :=
    Registry.addEntry_enabled (List.cons_ne_nil _ _) rfl rfl hkind rfl
  have hsection : Registry.adapterSection outletConfig =
      .ok [(.text "news", .map outletEntries)] := rfl
  rw [Registry.build, hsection]
  simp only [Registry.addEntries, hadd]
  rfl

/-- Whatever is accepted goes to the one channel, for a channel of the rule's own. -/
def broadcast : Rule where
  name := some "all"
  publish := [{ adapter := "news", channel := .text "@some" }]

/-- An item with a file for its picture. -/
def poster : Content where
  text := .text "Look"
  photo := .text "a.png"
  options := [(.text "disable_notification", .bool true)]

def outletWorld : World where
  adapters := [("news", .telegram outlet)]
  site := { files := { files := [(["a.png"], [1])] } }

/-- The task that an item is routed to. -/
def broadcastTask (c : Content) : Task where
  adapter := "news"
  content := c.setOption "channel" (.text "@some")
  delay := 0
  rule := .text "all"
  channel := .text "@some"

def outletTasks (c : Content) : Outcome (List Task) :=
  (Routing.tasks (fun _ => true) ⟨dayMicros, by decide⟩ Validator.body (.item c)
    (.ok [.rule broadcast])).outcome

/-- Whatever the default validator accepts is routed to the channel. -/
theorem outletTasks_accepted {c : Content} {v : Verdict} (h : Validator.body c = .ok v)
    (hv : v.valid = true) : outletTasks c = .ok [broadcastTask c] := by
  have ha : Routing.accepted Validator.body (.item c) = .ok c := by
    simp only [Routing.accepted, Source.content, h, hv, bind, Except.bind]
    rfl
  rw [outletTasks, Routing.tasks_accepted ha]
  rfl

theorem reaches_poster : outlet.Reaches outletWorld.site.files poster (.text "@some") where
  channel := nofun
  medium := by
    intro name path hmedium _
    obtain ⟨rfl, rfl⟩ : "photo" = name ∧ "a.png" = path := by
      simpa [poster, Content.medium?, Body.media, Value.truthy] using hmedium
    intro hfind
    have hfound : outletWorld.site.files.find (Files.tidy "a.png") = .file [1] := by rfl
    cases hfound.symm.trans hfind

theorem tasks_posted_poster : outletTasks poster = .ok [broadcastTask poster] ∧
    (∃ m, outletWorld.Posts (broadcastTask poster) 0 outlet poster m ∧
      outletWorld.Sends (broadcastTask poster) 0 outlet m) ∧
    outletWorld.PostsOnce (broadcastTask poster) 0 := by
  have htasks := outletTasks_accepted (c := poster) rfl rfl
  have htextual : poster.IsTextual := ⟨rfl, by decide⟩
  obtain ⟨m, hposts, hsends, honce⟩ := Routing.tasks_posted (w := outletWorld)
    build_outletConfig rfl rfl rfl htextual rfl rfl htasks List.mem_cons_self 0
  exact ⟨htasks, ⟨m, hposts, hsends⟩, honce reaches_poster⟩

/-- An item whose medium is named by more characters than a file may be. -/
def unnameable : Content where
  photo := .text (String.ofList (List.replicate 256 'a'))

theorem not_postsOnce_unnameable :
    (Registry.build none outletConfig).2 = .ok outletWorld.adapters ∧ unnameable.IsTextual ∧
      outletTasks unnameable = .ok [broadcastTask unnameable] ∧
      ¬ outletWorld.PostsOnce (broadcastTask unnameable) 0 := by
  have hmedia : unnameable.photo.truthy = true := by decide +kernel
  have haccepted : Validator.body unnameable = .ok ⟨true, []⟩ := by
    have hblank : Validator.hasText unnameable.text = .ok false := rfl
    have hset : unnameable.hasMedia = true := by
      rw [Body.hasMedia, Body.media, List.any_cons, hmedia]
      rfl
    simp only [Validator.body, hblank, hset]
    rfl
  have hmedium : (broadcastTask unnameable).content.medium? =
      some ("photo", .text (String.ofList (List.replicate 256 'a'))) :=
    List.find?_cons_of_pos hmedia
  have hne : ∀ c, c ≠ 'a' → c ∉ List.replicate 256 'a' := fun c hc h =>
    hc (List.eq_of_mem_replicate h)
  refine ⟨by rw [build_outletConfig]; rfl, ⟨rfl, by decide +kernel⟩,
    outletTasks_accepted haccepted rfl, ?_⟩
  exact World.not_postsOnce_longName 0 rfl ⟨_, rfl⟩ rfl hmedium rfl (hne _ (by decide))
    (hne _ (by decide)) (by decide +kernel)

end Syndicate

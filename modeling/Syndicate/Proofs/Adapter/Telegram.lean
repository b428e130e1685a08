import Syndicate.Proofs.Adapter
import Syndicate.Proofs.Entries

/-! What a post to a channel is sent as. Either it cannot be sent and nothing goes out, or one
request does, with what the item, its options and the settings say. -/

namespace Syndicate

/-! ### Items with texts -/

/-- Whether a value is a text or null. -/
def Value.isTextual : Value → Bool
  | .null | .text _ => true
  | _ => false

namespace Content

/-- Whether the text and the media of an item are texts or null. -/
structure IsTextual (c : Content) : Prop where
  text : c.text.isTextual = true
  media : ∀ m ∈ c.media, m.2.isTextual = true

/-- The text of an item, empty if there is none. -/
def plainText (c : Content) : String :=
  match c.text with
  | .text s => s
  | _ => ""

theorem text_eq {c : Content} (h : c.text.isTextual = true) (hp : c.plainText ≠ "") :
    c.text = .text c.plainText := by
  unfold plainText at hp ⊢
  cases ht : c.text <;> simp_all [Value.isTextual]

/-- The first medium that is set, with the name of its field. -/
def medium? (c : Content) : Option (String × Value) := c.media.find? fun m => m.2.truthy

/-- The item with another value in one of its plain fields. -/
def withField (c : Content) (name : String) (v : Value) : Content :=
  { c with toBody := c.toBody.set name v }

variable {c : Content} {name : String} {v : Value}

theorem medium?_eq_none (h : c.medium? = none) : c.hasMedia = false := by
  rw [medium?, List.find?_eq_none] at h
  rw [Body.hasMedia, List.any_eq_false]
  exact h

theorem hasMedia_of_medium? (h : c.medium? = some (name, v)) : c.hasMedia = true := by
  rw [Body.hasMedia, List.any_eq_true]
  exact ⟨_, List.mem_of_find?_eq_some h, by simpa using List.find?_some h⟩

/-- A medium that is set is the path or the link of something. -/
theorem IsTextual.medium (hc : c.IsTextual) (h : c.medium? = some (name, v)) :
    ∃ path, v = .text path := by
  have ht := hc.media _ (List.mem_of_find?_eq_some h)
  have hset : v.truthy = true := by simpa using List.find?_some h
  cases v <;> simp_all [Value.isTextual, Value.truthy]

/-- The fields of media are four. -/
theorem name_of_medium? (h : c.medium? = some (name, v)) :
    name = "photo" ∨ name = "video" ∨ name = "document" ∨ name = "audio" := by
  have hmem := List.mem_of_find?_eq_some h
  simp only [Body.media, List.mem_cons, Prod.mk.injEq, List.not_mem_nil, or_false] at hmem
  tauto

theorem text_withField (h : c.medium? = some (name, v)) (w : Value) :
    (c.withField name w).text = c.text := by
  rcases name_of_medium? h with rfl | rfl | rfl | rfl <;> rfl

/-- A medium is still the first one when it is another one. -/
theorem medium?_withField (h : c.medium? = some (name, v)) {w : Value} (hw : w.truthy = true) :
    (c.withField name w).medium? = some (name, w) := by
  simp only [medium?, Body.media, List.find?_cons] at h
  cases hp : c.photo.truthy with
  | true =>
    obtain ⟨rfl, rfl⟩ : "photo" = name ∧ c.photo = v := by simpa [hp] using h
    simp [medium?, withField, Body.set, Body.media, hw]
  | false =>
    cases hv : c.video.truthy with
    | true =>
      obtain ⟨rfl, rfl⟩ : "video" = name ∧ c.video = v := by simpa [hp, hv] using h
      simp [medium?, withField, Body.set, Body.media, hp, hw]
    | false =>
      cases hd : c.document.truthy with
      | true =>
        obtain ⟨rfl, rfl⟩ : "document" = name ∧ c.document = v := by simpa [hp, hv, hd] using h
        simp [medium?, withField, Body.set, Body.media, hp, hv, hw]
      | false =>
        cases ha : c.audio.truthy with
        | true =>
          obtain ⟨rfl, rfl⟩ : "audio" = name ∧ c.audio = v := by simpa [hp, hv, hd, ha] using h
          simp [medium?, withField, Body.set, Body.media, hp, hv, hd, hw]
        | false => simp [hp, hv, hd, ha] at h

end Content

/-! ### What can be sent -/

/-- A limit is one for the characters of the text. -/
theorem Content.checkLength_cases {c : Content} (hc : c.text.isTextual = true) (limit : Nat)
    (hl : (Value.int limit).isShowable = true) :
    (limit < c.plainText.length ∧ checkLength (.int limit) c.text =
      fail (.tooLong (.int limit) (.int c.plainText.length))) ∨
    (c.plainText.length ≤ limit ∧ checkLength (.int limit) c.text = .ok ()) := by
  rw [plainText]
  cases ht : c.text with
  | null => exact .inr ⟨Nat.zero_le limit, rfl⟩
  | text s =>
    by_cases hs : s = ""
    · rw [hs]
      exact .inr ⟨Nat.zero_le limit, rfl⟩
    · have htrue : (Value.text s).truthy = true := by simp [Value.truthy, hs]
      have he : (Value.int limit).exceededBy s.length =
        .ok (decide ((limit : Int) < s.length)) := rfl
      rw [checkLength, if_pos htrue]
      by_cases hlt : limit < s.length
      · refine .inl ⟨hlt, ?_⟩
        simp [Value.length, he, bind, Except.bind, hlt, failShowing, hl]
      · refine .inr ⟨Nat.le_of_not_lt hlt, ?_⟩
        simp [Value.length, he, bind, Except.bind, pure, Except.pure, hlt]
  | _ => simp [ht, Value.isTextual] at hc

theorem Content.checkLength_ok_iff {c : Content} (ht : c.text.isTextual = true) (limit : Nat)
    (hl : (Value.int limit).isShowable = true) :
    checkLength (.int limit) c.text = .ok () ↔ c.plainText.length ≤ limit := by
  rcases Content.checkLength_cases ht limit hl with ⟨hlt, h⟩ | ⟨hle, h⟩
  · rw [h]
    exact iff_of_false nofun (Nat.not_le.2 hlt)
  · rw [h]
    exact iff_of_true rfl hle

namespace Telegram

variable {g : Telegram} {c : Content} {files : Files} {chat name path : String} {es : Entries}

/-- A post of an item in a form that can be sent: where it goes, by which method, and what it
carries. -/
structure Message where
  chat : String
  method : String
  payload : Payload

/-- What a post with a medium carries besides it. -/
def captionFields (g : Telegram) (chat : String) (c : Content) : Entries :=
  g.commonFields chat c ++ [field "caption" (caption c.text)]

/-- What a post of an item to a channel is sent as. -/
def messageTo (g : Telegram) (files : Files) (c : Content) (chat : String) : Outcome Message :=
  match c.medium? with
  | some (name, medium) => do
    checkLength maxCaption c.text
    let payload ← mediaPayload files name medium (g.captionFields chat c)
    pure ⟨chat, mediaMethod name, payload⟩
  | none => do
    checkLength maxLength c.text
    pure ⟨chat, "sendMessage", .json (g.textFields chat c)⟩

def message (g : Telegram) (files : Files) (c : Content) : Outcome Message := do
  g.messageTo files c (← g.chatOf c)

theorem message_eq (h : g.chatOf c = .ok chat) (files : Files) :
    g.message files c = g.messageTo files c chat := by
  rw [message, h]
  rfl

/-- A post is sent as its message, and nothing is sent if there is none. -/
theorem outcome_publish (g : Telegram) (c : Content) (u : Site) :
    (g.publish c).outcome u = match g.message u.files c with
      | .error f => (.error f, u)
      | .ok m => (g.call m.method m.payload >>= fun result =>
          Act.ofOutcome (g.refOf m.chat result)).outcome u := by
  rw [publish, Act.outcome_ofOutcome_bind]
  cases hc : g.chatOf c with
  | error f =>
    rw [message, hc]
    rfl
  | ok chat =>
    rw [message_eq hc, messageTo, Content.medium?]
    dsimp only
    cases c.media.find? fun m => m.2.truthy with
    | none =>
      dsimp only
      rw [Act.outcome_ofOutcome_bind]
      cases checkLength maxLength c.text <;> rfl
    | some m =>
      dsimp only
      rw [Act.outcome_ofOutcome_bind]
      cases checkLength maxCaption c.text with
      | error f => rfl
      | ok _ =>
        dsimp only
        rw [Act.outcome_bind_ok (Act.outcome_get u), Act.outcome_ofOutcome_bind, captionFields]
        cases mediaPayload u.files m.1 m.2 _ <;> rfl

/-- A call is one request. -/
theorem call_sent (g : Telegram) (method : String) {payload : Payload} {timeout : Value}
    (h : g.timeoutFor payload = .ok timeout) (u : Site) :
    ((g.call method payload).outcome u).2.network.sent =
      u.network.sent ++ [⟨g.baseUrl ++ "/" ++ method, timeout, payload⟩] := by
  have hlog : PreservesLog fun u v : Site => v.network.sent = u.network.sent :=
    ⟨fun _ => rfl, fun _ _ _ h h' => h'.trans h, fun _ _ _ => rfl⟩
  rw [call, Act.outcome_ofOutcome_bind, h]
  dsimp only
  rw [Act.outcome_bind_ok (Site.outcome_send _ u), hlog.readReply method _ _]

theorem publish_sent {m : Message} {timeout : Value} {u : Site}
    (h : g.message u.files c = .ok m) (ht : g.timeoutFor m.payload = .ok timeout) :
    ((g.publish c).outcome u).2.network.sent =
      u.network.sent ++ [⟨g.baseUrl ++ "/" ++ m.method, timeout, m.payload⟩] := by
  rw [outcome_publish, h]
  dsimp only
  rw [Act.state_bind_ofOutcome, g.call_sent m.method ht]

/-! ### What is carried -/

/-- What a post of an item carries: its channel and its options, or else the settings. -/
structure Carries (g : Telegram) (c : Content) (chat : String) (es : Entries) : Prop where
  chat : Entries.get? es "chat_id" = some (.text chat)
  parseMode : Entries.get? es "parse_mode" = some ((c.option? "parse_mode").getD g.parseMode)
  disableNotification : Entries.get? es "disable_notification" =
    some ((c.option? "disable_notification").getD g.disableNotification)

theorem carries_append (g : Telegram) (c : Content) (chat : String) (es : Entries) :
    g.Carries c chat (g.commonFields chat c ++ es) where
  chat := by simp [commonFields, field]
  parseMode := by simp [commonFields, field]
  disableNotification := by simp [commonFields, field]

theorem get?_textFields : Entries.get? (g.textFields chat c) "text" = some c.text := by
  rw [textFields, Entries.get?_append, commonFields]
  split <;> simp [field]

theorem get?_captionFields :
    Entries.get? (g.captionFields chat c) "caption" = some (caption c.text) := by
  rw [captionFields, Entries.get?_append, commonFields]
  split <;> simp [field]

/-- The fields of media are carried by no post but those of media. -/
theorem get?_captionFields_medium {v : Value} (h : c.medium? = some (name, v)) :
    Entries.get? (g.captionFields chat c) name = none := by
  rw [captionFields, Entries.get?_append, commonFields]
  rcases Content.name_of_medium? h with rfl | rfl | rfl | rfl <;> split <;> simp [field]

/-- A text that counts as false is an empty one. -/
theorem caption_textual (h : c.text.isTextual = true) : caption c.text = .text c.plainText := by
  unfold caption Content.plainText
  cases ht : c.text with
  | null => rfl
  | text s => by_cases hs : s = "" <;> simp [Value.truthy, hs]
  | _ => simp [ht, Value.isTextual] at h

/-- A medium in text goes out as a link or is uploaded, unless its path cannot be followed. -/
theorem mediaPayload_cases (files : Files) (path : String) {v : Value}
    (h : c.medium? = some (name, v)) :
    mediaPayload files name (.text path) (g.captionFields chat c) =
      match if isLink path.toList then .ok none else files.plain? path with
      | .error f => .error f
      | .ok none => .ok (.json (g.captionFields chat c ++ [(.text name, .text path)]))
      | .ok (some bytes) =>
        .ok (.form ((g.captionFields chat c).map fun e => (e.1, formValue e.2)) name
          (Files.lastName path) (Text.ofBytes bytes)) := by
  rw [mediaPayload, Entries.put_of_get?_eq_none (get?_captionFields_medium h)]
  cases hl : isLink path.toList with
  | true => simp only [↓reduceIte]; rfl
  | false =>
    simp only [↓reduceIte, Bool.false_eq_true]
    cases files.plain? path with
    | error f => rfl
    | ok found => cases found <;> rfl

/-- A post with a link in the place of its medium. -/
theorem messageTo_link {v : Value} (h : c.medium? = some (name, v))
    (hcheck : checkLength maxCaption c.text = .ok ()) {url : String}
    (hl : isLink url.toList = true) (files : Files) (chat : String) :
    g.messageTo files (c.withField name (.text url)) chat = .ok ⟨chat, mediaMethod name,
      .json (g.captionFields chat c ++ [(.text name, .text url)])⟩ := by
  have htrue : (Value.text url).truthy = true := by
    have hne : url ≠ "" := by
      rintro rfl
      cases hl
    simp [Value.truthy, hne]
  have hmedium := Content.medium?_withField h htrue
  have hfields : g.captionFields chat (c.withField name (.text url)) = g.captionFields chat c := by
    rw [captionFields, captionFields, Content.text_withField h]
    rfl
  rw [messageTo, hmedium]
  dsimp only
  rw [Content.text_withField h, hcheck, mediaPayload_cases files url hmedium, hl, hfields]
  rfl

end Telegram

/-! ### Names that are too long -/

section Names

variable {cs : List Char} {g : Telegram} {c : Content} {chat name : String}

/-- A text without slashes is a name. -/
theorem Files.names_ofList (h : '/' ∉ cs) : names (String.ofList cs) = [String.ofList cs] := by
  rw [names, String.toList_ofList, List.splitOn_eq_singleton h, List.map_singleton]

theorem Files.tidy_ofList (h : '/' ∉ cs) (hempty : String.ofList cs ≠ "")
    (hidle : String.ofList cs ≠ ".") : tidy (String.ofList cs) = String.ofList cs := by
  have hnames : tidyNames (String.ofList cs) = [String.ofList cs] := by
    simp [tidyNames, names_ofList h, hempty, hidle]
  simp only [tidy, hnames, String.intercalate_singleton, hempty, if_false, String.toList_ofList]
  split <;> simp_all

/-- A name of too many bytes cannot even be looked up. -/
theorem Files.plain?_longName (fs : Files) (hslash : '/' ∉ cs) (hnull : Char.ofNat 0 ∉ cs)
    (hlong : maxName < (String.ofList cs).utf8ByteSize) :
    fs.plain? (String.ofList cs) = faulty (.system "File name too long") := by
  have hne : ∀ s : String, s.utf8ByteSize ≤ maxName → String.ofList cs ≠ s := by
    rintro s hs rfl
    exact Nat.not_lt.2 hs hlong
  have hempty := hne "" (by decide)
  have hidle := hne "." (by decide)
  have hup := hne up (by decide)
  have hfind : fs.find (tidy (String.ofList cs)) = .tooLong := by
    rw [tidy_ofList hslash hempty hidle, find, if_neg hempty, names_ofList hslash]
    split
    · rfl
    · split
      · rename_i hhead
        exact absurd (List.cons.inj hhead).1 hempty
      · simp [walk, hempty, hidle, hup, hlong]
  rw [plain?, hasNull, String.toList_ofList, hfind]
  simp [hnull]

/-- A path that a look-up fails on is too long. -/
theorem Files.plain?_error {fs : Files} {path : String} {f : Failure}
    (h : fs.plain? path = .error f) :
    fs.find (tidy path) = .tooLong ∧ f = .fault (.system "File name too long") := by
  unfold plain? at h
  split at h
  · cases h
  · split at h
    · cases h
    · rename_i hfind
      cases h
      exact ⟨hfind, rfl⟩
    · cases h

theorem Telegram.isLink_eq_false (h : '/' ∉ cs) : isLink cs = false := by
  fun_induction isLink cs with
  | case1 rest => simp at h
  | case2 head rest hhead ih => exact ih fun hrest => h (List.mem_cons_of_mem _ hrest)
  | case3 => rfl

/-- What could be the name of a medium on the platform is taken for a path. -/
theorem Telegram.message_longName (files : Files) (hchat : g.chatOf c = .ok chat)
    (hm : c.medium? = some (name, .text (String.ofList cs)))
    (hcheck : checkLength maxCaption c.text = .ok ()) (hslash : '/' ∉ cs)
    (hnull : Char.ofNat 0 ∉ cs) (hlong : Files.maxName < (String.ofList cs).utf8ByteSize) :
    g.message files c = faulty (.system "File name too long") := by
  rw [message_eq hchat, messageTo, hm]
  dsimp only
  rw [hcheck, mediaPayload_cases files _ hm, String.toList_ofList, isLink_eq_false hslash,
    if_neg Bool.false_ne_true, files.plain?_longName hslash hnull hlong]
  rfl

end Names

end Syndicate

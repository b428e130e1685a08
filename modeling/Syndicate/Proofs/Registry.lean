import Syndicate.Proofs.Act
import Syndicate.Proofs.Failure
import Syndicate.Registry

/-! What a configuration registers. -/

namespace Syndicate

/-! ### Registered adapters -/

/-- Whether the time that a call of an adapter may take is a number, if it makes any. -/
def Adapter.IsTimed : Adapter → Prop
  | .telegram g => ∃ x, g.timeout = .float x
  | _ => True

namespace Registry

variable {token : Option String} {name : String} {es : Entries} {a : Adapter} {r r' : Registry}

theorem mem_put {e : String × Adapter} (h : e ∈ r.put name a) : e.2 = a ∨ e ∈ r := by
  induction r with
  | nil =>
    obtain rfl := List.mem_singleton.1 h
    exact .inl rfl
  | cons head r ih =>
    rw [put] at h
    split at h
    · rcases List.mem_cons.1 h with rfl | h
      · exact .inl rfl
      · exact .inr (List.mem_cons_of_mem _ h)
    · rcases List.mem_cons.1 h with rfl | h
      · exact .inr List.mem_cons_self
      · exact (ih h).imp_right (List.mem_cons_of_mem _)

theorem make_timeout {config : AdapterConfig} {token chat mode silent timeout : Value}
    {g : Telegram} (h : Telegram.make config token chat mode silent timeout = .ok g) :
    g.timeout = timeout := by
  obtain ⟨_, -, h⟩ := ok_of_bind h
  obtain ⟨_, -, h⟩ := ok_of_bind h
  cases h
  rfl

theorem telegramOf_isTimed (h : telegramOf token name es = .ok a) : a.IsTimed := by
  obtain ⟨chat, -, h⟩ := ok_of_bind h
  obtain ⟨timeout, -, h⟩ := ok_of_bind h
  obtain ⟨g, hg, h⟩ := ok_of_bind h
  cases h
  exact ⟨timeout, make_timeout hg⟩

theorem adapterOf_isTimed {shown kind : String} (h : adapterOf token shown kind name es = .ok a) :
    a.IsTimed := by
  unfold adapterOf at h
  split at h
  · obtain ⟨_, h⟩ := ok_of_either h
    cases h
    trivial
  · exact telegramOf_isTimed h
  · cases h

theorem orKind_text (name kind : String) :
    (if (Value.text name).truthy then Value.text name else .text kind) =
      .text (if name = "" then kind else name) := by
  by_cases hempty : name = ""
  · subst hempty
    rfl
  · simp [Value.truthy, hempty]

/-- An adapter goes by its name, or by its kind if the name is empty. -/
theorem adapterOf_id {shown kind : String} (h : adapterOf token shown kind name es = .ok a) :
    kind ≠ "" ∧ a.id = .ok (.text (if name = "" then kind else name)) := by
  unfold adapterOf at h
  split at h
  · obtain ⟨credentials, h⟩ := ok_of_either h
    cases h
    exact ⟨by decide, congrArg Except.ok (orKind_text name "dummy")⟩
  · obtain ⟨chat, -, h⟩ := ok_of_bind h
    obtain ⟨timeout, -, h⟩ := ok_of_bind h
    obtain ⟨g, hg, h⟩ := ok_of_bind h
    cases h
    obtain ⟨_, -, hg⟩ := ok_of_bind hg
    obtain ⟨_, -, hg⟩ := ok_of_bind hg
    cases hg
    exact ⟨by decide, congrArg Except.ok (orKind_text name "telegram")⟩
  · cases h

/-- An adapter of the configuration has a text for an id. -/
theorem adapterOf_named {shown kind : String} (h : adapterOf token shown kind name es = .ok a) :
    ∃ id, a.id = .ok (.text id) :=
  ⟨_, (adapterOf_id h).2⟩

section All

variable {P : Adapter → Prop} (hP : ∀ {shown kind name : String} {es : Entries} {a : Adapter},
  adapterOf token shown kind name es = .ok a → P a)
include hP

theorem addEntry_all {key entry : Value} {line : Option Record} (h : ∀ e ∈ r, P e.2)
    (ha : addEntry token r key entry = .ok (r', line)) : ∀ e ∈ r', P e.2 := by
  unfold addEntry at ha
  obtain ⟨es, ha⟩ := ok_of_either ha
  dsimp only at ha
  split at ha
  · cases ha
    exact h
  · obtain ⟨shown, -, ha⟩ := ok_of_bind ha
    obtain ⟨kind, -, ha⟩ := ok_of_bind ha
    obtain ⟨a, hadapter, ha⟩ := ok_of_bind ha
    cases ha
    intro e he
    rcases mem_put he with rfl | he
    · exact hP hadapter
    · exact h e he

theorem addEntries_all {lines : List Record} (h : ∀ e ∈ r, P e.2)
    (ha : addEntries token r es = (lines, .ok r')) : ∀ e ∈ r', P e.2 := by
  induction es generalizing r lines with
  | nil =>
    cases ha
    exact h
  | cons entry es ih =>
    obtain ⟨key, value⟩ := entry
    rw [addEntries] at ha
    cases hadd : addEntry token r key value with
    | error f =>
      rw [hadd] at ha
      cases ha
    | ok added =>
      rw [hadd] at ha
      obtain ⟨-, hrest⟩ := Prod.mk.inj ha
      exact ih (addEntry_all hP h hadd) (Prod.ext rfl hrest)

/-- What holds of every adapter that an entry sets up holds of all that are registered. -/
theorem build_all {config : Value} {lines : List Record}
    (h : build token config = (lines, .ok r)) : ∀ e ∈ r, P e.2 := by
  unfold build at h
  split at h
  · cases h
  · exact addEntries_all hP (by simp) h

end All

/-- An entry that is switched on is registered as the adapter of its kind. -/
theorem addEntry_enabled {key : Value} {shown kind : String} (hes : es ≠ [])
    (hkey : key.shown = .ok shown) (hon : Rule.isEnabled es = true)
    (hkind : kindOf key es = .ok kind) (ha : adapterOf token shown kind shown es = .ok a) :
    addEntry token r key (.map es) = .ok (r.put shown a,
      some ⟨source, .info, "Registered adapter '" ++ shown ++ "' (" ++ kind ++ ")."⟩) := by
  have htrue : (Value.map es).truthy = true := by cases es <;> simp_all [Value.truthy]
  rw [addEntry, if_pos htrue]
  simp only [Value.entries, bind, Except.bind, hkey, hon, hkind, ha, pure, Except.pure,
    Bool.not_true, Bool.false_eq_true, if_false]

/-- Whatever adapter is registered, its calls have a time limit in numbers. -/
theorem build_isTimed {config : Value} {lines : List Record}
    (h : build token config = (lines, .ok r)) : ∀ e ∈ r, e.2.IsTimed :=
  build_all adapterOf_isTimed h

theorem all_of_lookup {P : Adapter → Prop} (h : ∀ e ∈ r, P e.2) (hl : r.lookup name = some a) :
    P a := by
  obtain ⟨before, after, hr, -⟩ := List.lookup_eq_some_iff.1 hl
  exact h (name, a) (by rw [hr]; simp)

theorem isTimed_of_lookup (h : ∀ e ∈ r, e.2.IsTimed) (hl : r.lookup name = some a) :
    a.IsTimed := all_of_lookup h hl

/-! ### Entries that break -/

variable {kind shown : String} {key entry : Value}

/-- The fields of an entry, none when it counts as false. -/
def fieldsOf (entry : Value) : Outcome Entries :=
  if entry.truthy then entry.entries "get" else .ok []

/-- The token of an entry for a channel. -/
def tokenOf (token : Option String) (es : Entries) : Value :=
  let given := Entries.get es "bot_token"
  if given.truthy then given else .text (token.getD "")

/-- The time that an entry gives to a call. -/
def timeoutOf (es : Entries) : Value := (Entries.get? es "timeout").getD (.int 10)

/-- An entry for a channel has a token and a channel. -/
def Complete (token : Option String) (es : Entries) : Prop :=
  (tokenOf token es).truthy = true ∧
    ∃ chat, textOf (Entries.get es "chat_id") = .ok chat ∧ chat ≠ ""

/-- The fields of an adapter break: what a dummy signs in with is no row of pairs, or a complete
entry for a channel has a time limit that is no number, or a token that cannot be shown. -/
inductive FieldsBreak (token : Option String) (es : Entries) (kind : String) : Prop
  | credentials (hkind : kind = "dummy") (h : (Entries.get es "credentials").truthy = true)
    (hbreaks : Breaks (Entries.get es "credentials").toEntries)
  | timeout (hkind : kind = "telegram") (h : Complete token es)
    (hbreaks : Breaks (timeoutOf es).toFloat)
  | token (hkind : kind = "telegram") (h : Complete token es)
    (hshown : (tokenOf token es).isShowable = false)

/-- An entry breaks: it is no mapping, or it is switched on and its name or its type cannot be shown
or its fields break. -/
inductive EntryBreaks (token : Option String) (key entry : Value) : Prop
  | misshapen (h : entry.Misshapen)
  | name {es : Entries} (hes : fieldsOf entry = .ok es) (hon : Rule.isEnabled es = true)
    (h : key.isShowable = false)
  | kind {es : Entries} (hes : fieldsOf entry = .ok es) (hon : Rule.isEnabled es = true)
    (h : ((Entries.get? es "type").getD key).isShowable = false)
  | fields {es : Entries} {kind : String} (hes : fieldsOf entry = .ok es)
    (hon : Rule.isEnabled es = true) (hkind : kindOf key es = .ok kind)
    (h : FieldsBreak token es kind)

/-- Finding out the channel of an entry, which is a problem of the configuration if it fails. -/
def chatOf (token : Option String) (name : String) (es : Entries) : Outcome String :=
  (do
    let chat ← textOf (Entries.get es "chat_id")
    Telegram.checked (tokenOf token es) (.text chat)).mapError (incomplete name)

theorem checked_text (botToken : Value) (chat : String) :
    Telegram.checked botToken (.text chat) =
      if botToken.truthy = false then faulty (.settingMissing "bot_token")
      else if chat = "" then faulty (.settingMissing "chat_id") else .ok chat := by
  unfold Telegram.checked
  cases botToken.truthy with
  | false => rfl
  | true =>
    by_cases hc : chat = ""
    · subst hc
      rfl
    · simp [Value.truthy, hc, Value.shown, Value.isShowable, Value.display]

theorem textOf_tooLong {v : Value} {f : Failure} (h : textOf v = .error f) :
    f = .fault .tooManyDigits := by
  unfold textOf Value.shown at h
  split at h
  · split at h <;> cases h
    rfl
  · cases h

/-- A channel that cannot be found out is a problem of the configuration. -/
theorem chatOf_fails {f : Failure} (h : chatOf token name es = .error f) :
    ∃ reason, f = .error (.config (.adapterIncomplete name reason)) := by
  unfold chatOf at h
  cases ht : textOf (Entries.get es "chat_id") with
  | error f' =>
    obtain rfl := textOf_tooLong ht
    rw [ht] at h
    exact ⟨_, (Except.error.inj h).symm⟩
  | ok chat =>
    rw [ht] at h
    change (Telegram.checked (tokenOf token es) (.text chat)).mapError _ = _ at h
    rw [checked_text] at h
    split at h
    · exact ⟨_, (Except.error.inj h).symm⟩
    · split at h
      · exact ⟨_, (Except.error.inj h).symm⟩
      · cases h

theorem chatOf_ok {chat : String} : chatOf token name es = .ok chat ↔
    (tokenOf token es).truthy = true ∧
      textOf (Entries.get es "chat_id") = .ok chat ∧ chat ≠ "" := by
  unfold chatOf
  cases textOf (Entries.get es "chat_id") with
  | error f => simp [bind, Except.bind, Except.mapError]
  | ok chat' =>
    change (Telegram.checked (tokenOf token es) (.text chat')).mapError _ = _ ↔ _
    rw [checked_text]
    cases (tokenOf token es).truthy with
    | false => simp [faulty, Except.mapError]
    | true =>
      by_cases hc : chat' = "" <;> simp only [hc, ↓reduceIte, Bool.true_eq_false, Except.mapError,
        faulty, reduceCtorEq, true_and, Except.ok.injEq, false_iff, not_and, not_not]
      · exact fun h => h.symm
      · exact ⟨fun h => ⟨h, h ▸ hc⟩, And.left⟩

theorem telegramOf_eq : telegramOf token name es = (do
    let chat ← chatOf token name es
    let timeout ← (timeoutOf es).toFloat
    let g ← Telegram.make ⟨.text name, Entries.get es "account", []⟩ (tokenOf token es)
      (.text chat) ((Entries.get? es "parse_mode").getD (.text "HTML"))
      (.bool (Entries.get es "disable_notification").truthy) (.float timeout)
    pure (.telegram g)) := rfl

theorem make_uses {config : AdapterConfig} {botToken mode silent timeout : Value} {chat : String}
    (htoken : botToken.truthy = true) (hchat : chat ≠ "") :
    Uses (Telegram.make config botToken (.text chat) mode silent timeout) ∧
    (Breaks (Telegram.make config botToken (.text chat) mode silent timeout) ↔
      botToken.isShowable = false) := by
  have hchecked : Telegram.checked botToken (.text chat) = .ok chat := by
    rw [checked_text, htoken]
    simp [hchat]
  unfold Telegram.make
  rw [hchecked]
  refine ⟨FailsWith.bind (.ok chat) fun _ => FailsWith.bind Value.shown_uses fun _ => .pure _, ?_⟩
  show Breaks (botToken.shown >>= fun _ => _) ↔ _
  rw [breaks_bind, Value.breaks_shown]
  simp

theorem breaks_telegramOf : Breaks (telegramOf token name es) ↔
    FieldsBreak token es "telegram" := by
  have hchat : ¬ Breaks (chatOf token name es) := by
    rintro ⟨f, hf⟩
    obtain ⟨_, h⟩ := chatOf_fails hf
    cases h
  have hrest : ∀ chat, chatOf token name es = .ok chat → (Breaks (do
      let timeout ← (timeoutOf es).toFloat
      let g ← Telegram.make ⟨.text name, Entries.get es "account", []⟩ (tokenOf token es)
        (.text chat) ((Entries.get? es "parse_mode").getD (.text "HTML"))
        (.bool (Entries.get es "disable_notification").truthy) (.float timeout)
      pure (Adapter.telegram g)) ↔
      Breaks (timeoutOf es).toFloat ∨ (tokenOf token es).isShowable = false) := by
    intro chat h
    obtain ⟨htoken, -, hne⟩ := chatOf_ok.1 h
    refine Value.toFloat_uses.breaks_bind fun timeout => ?_
    rw [breaks_bind, (make_uses htoken hne).2]
    simp
  rw [telegramOf_eq, breaks_bind]
  constructor
  · rintro (h | ⟨chat, h, hbreaks⟩)
    · exact absurd h hchat
    · obtain ⟨htoken, htext, hne⟩ := chatOf_ok.1 h
      rcases (hrest chat h).1 hbreaks with ht | ht
      · exact .timeout rfl ⟨htoken, chat, htext, hne⟩ ht
      · exact .token rfl ⟨htoken, chat, htext, hne⟩ ht
  · rintro (⟨hkind, -, -⟩ | ⟨-, ⟨htoken, chat, hchat⟩, h⟩ | ⟨-, ⟨htoken, chat, hchat⟩, h⟩)
    · exact absurd hkind (by decide)
    · have hok : chatOf token name es = .ok chat := chatOf_ok.2 ⟨htoken, hchat⟩
      exact .inr ⟨chat, hok, (hrest chat hok).2 (.inl h)⟩
    · have hok : chatOf token name es = .ok chat := chatOf_ok.2 ⟨htoken, hchat⟩
      exact .inr ⟨chat, hok, (hrest chat hok).2 (.inr h)⟩

theorem telegramOf_failsWith : FailsWith Error.IsInput (telegramOf token name es) := by
  intro e h
  rw [telegramOf_eq] at h
  cases hc : chatOf token name es with
  | error f =>
    obtain ⟨_, rfl⟩ := chatOf_fails hc
    rw [hc] at h
    cases h
    trivial
  | ok chat =>
    obtain ⟨htoken, -, hne⟩ := chatOf_ok.1 hc
    rw [hc] at h
    refine ((FailsWith.bind Value.toFloat_uses fun timeout => ?_ : Uses _) e h).elim
    exact FailsWith.bind (make_uses htoken hne).1 fun g => .pure _

/-- What a dummy signs in with, nothing when it counts as false. -/
def signInOf (es : Entries) : Outcome Entries :=
  let signIn := Entries.get es "credentials"
  if signIn.truthy then signIn.toEntries else .ok []

theorem dummyOf_eq : dummyOf name es = (do
    let credentials ← signInOf es
    pure (.dummy {
      config := ⟨.text name, Entries.get es "account", credentials⟩
      rejectVerify := (Entries.get es "reject_verify").truthy })) := by
  unfold dummyOf signInOf
  dsimp only
  split <;> rfl

theorem breaks_dummyOf : Breaks (dummyOf name es) ↔ FieldsBreak token es "dummy" := by
  have hbreaks : Breaks (dummyOf name es) ↔ Breaks (signInOf es) := by
    rw [dummyOf_eq, breaks_bind]
    simp
  rw [hbreaks, signInOf]
  constructor
  · intro h
    split at h
    · exact .credentials rfl ‹_› h
    · exact absurd h (not_breaks_ok _)
  · rintro (⟨-, ht, h⟩ | ⟨hkind, -, -⟩ | ⟨hkind, -, -⟩)
    · rwa [if_pos ht]
    · exact absurd hkind (by decide)
    · exact absurd hkind (by decide)

theorem dummyOf_uses : Uses (dummyOf name es) := by
  rw [dummyOf_eq]
  refine FailsWith.bind ?_ fun _ => .pure _
  unfold signInOf
  dsimp only
  split
  · exact Value.toEntries_uses
  · exact .ok _

theorem breaks_adapterOf : Breaks (adapterOf token shown kind name es) ↔
    FieldsBreak token es kind := by
  unfold adapterOf
  split
  · exact breaks_dummyOf
  · exact breaks_telegramOf
  · rename_i hdummy htelegram
    simp only [not_breaks_fail, false_iff]
    rintro (⟨hkind, -, -⟩ | ⟨hkind, -, -⟩ | ⟨hkind, -, -⟩)
    · exact hdummy hkind
    · exact htelegram hkind
    · exact htelegram hkind

theorem adapterOf_failsWith : FailsWith Error.IsInput (adapterOf token shown kind name es) := by
  unfold adapterOf
  split
  · exact dummyOf_uses.failsWith
  · exact telegramOf_failsWith
  · exact .fail trivial

/-- What is made of an entry with some fields: an adapter with its name if it is switched on, and a
line. -/
def entryMade (token : Option String) (key : Value) (es : Entries) :
    Outcome (Option (String × Adapter) × Option Record) :=
  if !Rule.isEnabled es then pure (none, skippedLine key)
  else do
    let shown ← key.shown
    let kind ← kindOf key es
    let a ← adapterOf token shown kind shown es
    pure (some (shown, a),
      some ⟨source, .info, "Registered adapter '" ++ shown ++ "' (" ++ kind ++ ")."⟩)

/-- What comes of an entry. -/
def entryOf (token : Option String) (key entry : Value) :
    Outcome (Option (String × Adapter) × Option Record) :=
  fieldsOf entry >>= entryMade token key

def enter (r : Registry) : Option (String × Adapter) × Option Record → Registry × Option Record
  | (none, line) => (r, line)
  | (some (shown, a), line) => (r.put shown a, line)

theorem addEntry_eq (r : Registry) (key entry : Value) :
    addEntry token r key entry = (entryOf token key entry).map (enter r) := by
  have heq : addEntry token r key entry = (do
      let es ← fieldsOf entry
      if !Rule.isEnabled es then pure (r, skippedLine key)
      else
        let shown ← key.shown
        let kind ← kindOf key es
        let a ← adapterOf token shown kind shown es
        pure (r.put shown a,
          some ⟨source, .info, "Registered adapter '" ++ shown ++ "' (" ++ kind ++ ")."⟩)) := by
    unfold addEntry fieldsOf
    split <;> rfl
  rw [heq, entryOf]
  cases fieldsOf entry with
  | error f => rfl
  | ok es =>
    simp only [bind, Except.bind, entryMade]
    cases Rule.isEnabled es with
    | false => rfl
    | true =>
      simp only [Bool.not_true, Bool.false_eq_true, ↓reduceIte]
      cases key.shown with
      | error f => rfl
      | ok shown =>
        cases kindOf key es with
        | error f => rfl
        | ok kind =>
          dsimp only
          cases adapterOf token shown kind shown es <;> rfl

theorem breaks_kindOf : Breaks (kindOf key es) ↔
    ((Entries.get? es "type").getD key).isShowable = false := by
  unfold kindOf
  rw [breaks_bind, Value.breaks_shown]
  simp

theorem kindOf_uses : Uses (kindOf key es) :=
  FailsWith.bind Value.shown_uses fun _ => .pure _

theorem breaks_entryMade : Breaks (entryMade token key es) ↔ Rule.isEnabled es = true ∧
    (key.isShowable = false ∨ ((Entries.get? es "type").getD key).isShowable = false ∨
      ∃ kind, kindOf key es = .ok kind ∧ FieldsBreak token es kind) := by
  unfold entryMade
  cases Rule.isEnabled es with
  | false => simp
  | true =>
    simp only [Bool.not_true, Bool.false_eq_true, ↓reduceIte, true_and]
    rw [← Value.breaks_shown, ← breaks_kindOf]
    refine Value.shown_uses.breaks_bind fun shown => ?_
    rw [breaks_bind]
    refine or_congr_right (exists_congr fun kind => and_congr_right fun _ => ?_)
    rw [breaks_bind, breaks_adapterOf]
    simp

theorem breaks_entryOf : Breaks (entryOf token key entry) ↔ EntryBreaks token key entry := by
  by_cases hmisshapen : entry.Misshapen
  · refine iff_of_true ?_ (.misshapen hmisshapen)
    exact breaks_bind.2 (.inl (Value.breaks_section.2 hmisshapen))
  · obtain ⟨es, hes⟩ : ∃ es, fieldsOf entry = .ok es :=
      Value.section_uses.not_breaks fun h => hmisshapen (Value.breaks_section.1 h)
    rw [entryOf, hes]
    show Breaks (entryMade token key es) ↔ _
    rw [breaks_entryMade]
    constructor
    · rintro ⟨hon, h | h | ⟨kind, hkind, h⟩⟩
      · exact .name hes hon h
      · exact .kind hes hon h
      · exact .fields hes hon hkind h
    · rintro (h | ⟨hes', hon, h⟩ | ⟨hes', hon, h⟩ | ⟨hes', hon, hkind, h⟩)
      · exact absurd h hmisshapen
      all_goals obtain rfl := Except.ok.inj (hes.symm.trans hes')
      · exact ⟨hon, .inl h⟩
      · exact ⟨hon, .inr (.inl h)⟩
      · exact ⟨hon, .inr (.inr ⟨_, hkind, h⟩)⟩

theorem entryOf_failsWith : FailsWith Error.IsInput (entryOf token key entry) := by
  refine .bind Value.section_uses.failsWith fun es => ?_
  unfold entryMade
  split
  · exact .pure _
  · exact .bind Value.shown_uses.failsWith fun _ => .bind kindOf_uses.failsWith fun kind =>
      .bind adapterOf_failsWith fun a => .pure _

theorem breaks_addEntries (r : Registry) (es : Entries) : Breaks (addEntries token r es).2 ↔
    FirstBreaks (fun e : Value × Value => entryOf token e.1 e.2) es := by
  induction es generalizing r with
  | nil => simp [addEntries, not_firstBreaks_nil]
  | cons e es ih =>
    obtain ⟨key, entry⟩ := e
    rw [addEntries, addEntry_eq, firstBreaks_cons]
    cases h : entryOf token key entry with
    | error f => simp [Except.map, Breaks]
    | ok found =>
      have hrest := ih (enter r found).1
      simpa [Except.map] using hrest

theorem addEntries_failsWith (r : Registry) (es : Entries) :
    FailsWith Error.IsInput (addEntries token r es).2 := by
  induction es generalizing r with
  | nil => exact .ok r
  | cons e es ih =>
    obtain ⟨key, entry⟩ := e
    have hentry : FailsWith _ (entryOf token key entry) := entryOf_failsWith
    rw [addEntries, addEntry_eq]
    cases h : entryOf token key entry with
    | error f =>
      intro e he
      exact hentry e (h.trans (congrArg _ (Except.error.inj he)))
    | ok found => exact ih (enter r found).1

/-- The adapters of a configuration break: they are no mapping, or an entry breaks and something
comes of all the entries before. -/
inductive SetupBreaks (token : Option String) (config : Entries) : Prop
  | misshapen (h : (Entries.get config "adapters").Misshapen)
  | entry {before after : Entries} {key entry : Value}
    (h : Entries.get config "adapters" = .map (before ++ (key, entry) :: after))
    (hbefore : ∀ e ∈ before, ∃ found, entryOf token e.1 e.2 = .ok found)
    (hbreaks : EntryBreaks token key entry)

theorem adapterSection_map (config : Entries) : adapterSection (.map config) =
    if (Entries.get config "adapters").truthy
    then (Entries.get config "adapters").entries "items" else .ok [] := rfl

theorem breaks_build {config : Entries} :
    Breaks (build token (.map config)).2 ↔ SetupBreaks token config := by
  unfold build
  rw [adapterSection_map]
  by_cases hmisshapen : (Entries.get config "adapters").Misshapen
  · obtain ⟨f, hf⟩ := Value.breaks_section (m := "items").2 hmisshapen
    rw [hf]
    exact iff_of_true ⟨f, rfl⟩ (.misshapen hmisshapen)
  · obtain ⟨es, hes⟩ := Value.section_uses (m := "items").not_breaks fun h =>
      hmisshapen (Value.breaks_section.1 h)
    rw [hes]
    refine (breaks_addEntries [] es).trans ⟨?_, ?_⟩
    · rintro ⟨before, ⟨key, entry⟩, after, rfl, hbefore, hbreaks⟩
      have hmap := (Value.section_ok (by simp)).1 hes
      exact .entry hmap hbefore (breaks_entryOf.1 hbreaks)
    · rintro (h | ⟨h, hbefore, hbreaks⟩)
      · exact absurd h hmisshapen
      · rw [(Value.section_ok (by simp)).2 h] at hes
        obtain rfl := Except.ok.inj hes
        exact ⟨_, _, _, rfl, hbefore, breaks_entryOf.2 hbreaks⟩

theorem build_failsWith {config : Entries} :
    FailsWith Error.IsInput (build token (.map config)).2 := by
  unfold build
  cases h : adapterSection (.map config) with
  | error f =>
    rintro e ⟨⟩
    exact (Value.section_uses e ((adapterSection_map config).symm.trans h)).elim
  | ok es => exact addEntries_failsWith [] es

end Registry

end Syndicate

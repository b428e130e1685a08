import Mathlib.Data.List.Forall2
import Syndicate.Proofs.Adapter.Dummy
import Syndicate.Proofs.Dispatch.World
import Syndicate.Proofs.Registry

/-! Whether a registry is true to its configuration. An entry is known by its key in text, and keys
that are different values may be the same text; an adapter without a name goes by that of its kind.
Only where names are different and not empty does every entry have an adapter of its own, which is
known everywhere by the name of the entry. -/

namespace Syndicate.Registry

variable {token : Option String} {es : Entries} {r r' : Registry} {a : Adapter}
  {name : String} {key entry : Value}

/-! ### Registers -/

theorem put_of_notMem (h : name ∉ r.map Prod.fst) : r.put name a = r ++ [(name, a)] := by
  induction r with
  | nil => rfl
  | cons e r ih =>
    obtain ⟨hne, hr⟩ := not_or.1 (List.mem_cons.not.1 h)
    rw [put, if_neg (Ne.symm hne), ih hr]
    rfl

theorem names_put (r : Registry) (name : String) (a : Adapter) :
    (r.put name a).map Prod.fst =
      if name ∈ r.map Prod.fst then r.map Prod.fst else r.map Prod.fst ++ [name] := by
  induction r with
  | nil => rfl
  | cons e r ih =>
    rw [put]
    by_cases he : e.1 = name
    · simp [he]
    · rw [if_neg he, List.map_cons, List.map_cons, ih]
      by_cases hr : name ∈ r.map Prod.fst
      · rw [if_pos hr, if_pos (List.mem_cons_of_mem _ hr)]
      · rw [if_neg hr, if_neg (List.mem_cons.not.2 (not_or.2 ⟨Ne.symm he, hr⟩)), List.cons_append]

/-- Puts adapters under their names, one after the other. -/
def putAll (r : Registry) (made : List (String × Adapter)) : Registry :=
  made.foldl (fun r e => r.put e.1 e.2) r

theorem nodup_putAll {made : List (String × Adapter)} (h : (r.map Prod.fst).Nodup) :
    ((putAll r made).map Prod.fst).Nodup := by
  induction made generalizing r with
  | nil => exact h
  | cons e made ih =>
    refine ih ?_
    rw [names_put]
    split
    · exact h
    · rename_i hnew
      exact List.nodup_append.2 ⟨h, List.nodup_singleton _, fun m hm n hn he =>
        hnew (List.mem_singleton.1 hn ▸ he ▸ hm)⟩

theorem putAll_of_nodup {made : List (String × Adapter)} (h : ((r ++ made).map Prod.fst).Nodup) :
    putAll r made = r ++ made := by
  induction made generalizing r with
  | nil => exact (List.append_nil r).symm
  | cons e made ih =>
    have hnew : e.1 ∉ r.map Prod.fst := fun hmem => by
      rw [List.map_append, List.map_cons] at h
      exact (List.nodup_append.1 h).2.2 _ hmem _ List.mem_cons_self rfl
    rw [putAll, List.foldl_cons, put_of_notMem hnew]
    exact (ih (by rwa [List.append_assoc])).trans (List.append_assoc r [e] made)

/-- Adapters keep their places, each under its own name, as long as the names are different. -/
theorem putAll_nil_iff {made : List (String × Adapter)} :
    putAll [] made = made ↔ (made.map Prod.fst).Nodup := by
  refine ⟨fun h => ?_, fun h => putAll_of_nodup h⟩
  rw [← h]
  exact nodup_putAll List.nodup_nil

theorem lookup_of_mem {e : String × Adapter} (h : (r.map Prod.fst).Nodup) (he : e ∈ r) :
    r.lookup e.1 = some e.2 := by
  induction r with
  | nil => cases he
  | cons head r ih =>
    obtain ⟨n, b⟩ := head
    obtain ⟨hhead, hr⟩ := List.nodup_cons.1 h
    rw [lookup_cons]
    rcases List.mem_cons.1 he with rfl | he
    · rw [if_pos rfl]
    · have hne : e.1 ≠ n := fun hn => hhead (List.mem_map.2 ⟨e, he, hn⟩)
      rw [if_neg hne, ih hr he]

/-! ### What entries come to -/

/-- Whether an entry is switched on. -/
def isOn (entry : Value) : Bool :=
  match fieldsOf entry with
  | .ok es => Rule.isEnabled es
  | .error _ => false

/-- The entries that are switched on, in their order. -/
def enabledOf (es : Entries) : Entries := es.filter fun e => isOn e.2

/-- The adapter of an entry, by its kind and with its key in text for a name. -/
def SetsUp (token : Option String) (e : Value × Value) (named : String × Adapter) : Prop :=
  e.1.shown = .ok named.1 ∧ ∃ es kind, fieldsOf e.2 = .ok es ∧ kindOf e.1 es = .ok kind ∧
    adapterOf token named.1 kind named.1 es = .ok named.2

theorem SetsUp.unique {e : Value × Value} {x y : String × Adapter} (hx : SetsUp token e x)
    (hy : SetsUp token e y) : x = y := by
  obtain ⟨name, a⟩ := x
  obtain ⟨name', b⟩ := y
  obtain ⟨hname, es, kind, hes, hkind, ha⟩ := hx
  obtain ⟨hname', es', kind', hes', hkind', hb⟩ := hy
  obtain rfl : name = name' := Except.ok.inj (hname.symm.trans hname')
  obtain rfl := Except.ok.inj (hes.symm.trans hes')
  obtain rfl := Except.ok.inj (hkind.symm.trans hkind')
  obtain rfl : a = b := Except.ok.inj (ha.symm.trans hb)
  rfl

theorem entryOf_cases {found : Option (String × Adapter)} {line : Option Record}
    (h : entryOf token key entry = .ok (found, line)) :
    isOn entry = false ∧ found = none ∨
      isOn entry = true ∧ ∃ named, found = some named ∧ SetsUp token (key, entry) named := by
  obtain ⟨es, hes, h⟩ := ok_of_bind h
  have hon : isOn entry = Rule.isEnabled es := by rw [isOn, hes]
  rw [hon]
  unfold entryMade at h
  cases henabled : Rule.isEnabled es with
  | false =>
    rw [henabled] at h
    cases h
    exact .inl ⟨rfl, rfl⟩
  | true =>
    rw [henabled] at h
    obtain ⟨shown, hshown, h⟩ := ok_of_bind h
    obtain ⟨kind, hkind, h⟩ := ok_of_bind h
    obtain ⟨a, ha, h⟩ := ok_of_bind h
    cases h
    exact .inr ⟨rfl, (shown, a), rfl, hshown, es, kind, hes, hkind, ha⟩

/-- Entries that can all be used put the adapters of those that are switched on into a registry. -/
theorem addEntries_ok {lines : List Record} (h : addEntries token r es = (lines, .ok r')) :
    ∃ made, List.Forall₂ (SetsUp token) (enabledOf es) made ∧ r' = putAll r made := by
  induction es generalizing r lines with
  | nil =>
    cases h
    exact ⟨[], .nil, rfl⟩
  | cons e es ih =>
    obtain ⟨key, entry⟩ := e
    rw [addEntries, addEntry_eq] at h
    cases hentry : entryOf token key entry with
    | error f =>
      rw [hentry] at h
      cases h
    | ok made =>
      obtain ⟨found, line⟩ := made
      rw [hentry] at h
      obtain ⟨-, hrest⟩ := Prod.mk.inj h
      obtain ⟨rest, hrestUp, rfl⟩ := ih (Prod.ext rfl hrest)
      rcases entryOf_cases hentry with ⟨hoff, rfl⟩ | ⟨hon, named, rfl, hup⟩
      · exact ⟨rest, by rwa [enabledOf, List.filter_cons_of_neg (by simp [hoff])], rfl⟩
      · refine ⟨named :: rest, ?_, rfl⟩
        rw [enabledOf, List.filter_cons_of_pos (by simpa using hon)]
        exact .cons hup hrestUp

theorem SetsUp.id_iff {e : Value × Value} {named : String × Adapter} (h : SetsUp token e named) :
    named.2.id = .ok (.text named.1) ↔ named.1 ≠ "" := by
  obtain ⟨-, es, kind, -, -, ha⟩ := h
  obtain ⟨hkind, hid⟩ := adapterOf_id ha
  rw [hid]
  by_cases hempty : named.1 = "" <;> simp [hempty, hkind]

/-! ### Faithful registries -/

/-- A registry has one adapter for each entry that is switched on, in their order and each under the
name of its entry. The adapter's id is that name, also in whatever a batch tells later on, and posts
that are kept under the ids of two of the adapters are never called the same. -/
structure Faithful (token : Option String) (es : Entries) (r : Registry) : Prop where
  entries : List.Forall₂ (SetsUp token) (enabledOf es) r
  names : (r.map Prod.fst).Nodup
  ids : ∀ e ∈ r, e.2.id = .ok (.text e.1)
  told : ∀ (w w' : World) (ps : List Posting) (events : List Event), w.adapters = r →
    w.Leads ps events w' → ∀ e ∈ r, w'.adapterId e.1 = .ok (.text e.1)
  posts : r.Pairwise fun x y => ∀ d d' : Dummy, x.2.id = .ok d.id → y.2.id = .ok d'.id →
    ∀ m n, d.postId m ≠ d'.postId n

/-- The names of the entries that are switched on: their keys in text. -/
def namesOf (es : Entries) : List (Outcome String) := (enabledOf es).map fun e => e.1.shown

/-- The entries that are switched on have different names, and none of them is empty. -/
structure Distinguished (es : Entries) : Prop where
  different : (namesOf es).Nodup
  named : .ok "" ∉ namesOf es

theorem namesOf_eq {made : List (String × Adapter)}
    (h : List.Forall₂ (SetsUp token) (enabledOf es) made) :
    namesOf es = (made.map Prod.fst).map .ok := by
  unfold namesOf
  generalize enabledOf es = on at h
  induction h with
  | nil => rfl
  | cons hup _ ih => rw [List.map_cons, List.map_cons, List.map_cons, hup.1, ih]

theorem setsUp_of_mem {made : List (String × Adapter)} {x : String × Adapter}
    (h : List.Forall₂ (SetsUp token) es made) (hx : x ∈ made) : ∃ e, SetsUp token e x := by
  induction h with
  | nil => cases hx
  | cons hup _ ih =>
    rcases List.mem_cons.1 hx with rfl | hx
    · exact ⟨_, hup⟩
    · exact ih hx

theorem setsUp_unique {made made' : List (String × Adapter)}
    (h : List.Forall₂ (SetsUp token) es made) (h' : List.Forall₂ (SetsUp token) es made') :
    made = made' := by
  induction h generalizing made' with
  | nil =>
    cases h'
    rfl
  | cons hup _ ih =>
    cases h' with
    | cons hup' hrest => rw [hup.unique hup', ih hrest]

theorem Faithful.of_ids (hentries : List.Forall₂ (SetsUp token) (enabledOf es) r)
    (hnames : (r.map Prod.fst).Nodup) (hids : ∀ e ∈ r, e.2.id = .ok (.text e.1)) :
    Faithful token es r where
  entries := hentries
  names := hnames
  ids := hids
  told w w' ps events hw hleads e he := by
    rw [hleads.ids, World.adapterId, World.adapter, hw, lookup_of_mem hnames he]
    exact hids e he
  posts := by
    refine (List.pairwise_map.1 hnames).imp_of_mem fun {x y} hx hy hne d d' hd hd' m n h => hne ?_
    have hpost : ∀ {x : String × Adapter} {d : Dummy} (k : Nat), x ∈ r → x.2.id = .ok d.id →
        d.postId k = .text (Dummy.postName x.1 k) := by
      intro x d k hx hd
      have hid : d.id = .text x.1 := Except.ok.inj (hd.symm.trans (hids x hx))
      rw [Dummy.postId, hid]
      rfl
    rw [hpost m hx hd, hpost n hy hd'] at h
    exact (Dummy.postName_inj (Value.text.inj h)).1

/-- What is built is faithful if and only if the entries can be told apart by their names. -/
theorem build_faithful_iff {config : Value} {lines : List Record}
    (hes : adapterSection config = .ok es) (h : build token config = (lines, .ok r)) :
    Faithful token es r ↔ Distinguished es := by
  rw [build, hes] at h
  obtain ⟨made, hmade, rfl⟩ := addEntries_ok h
  have hinj : Function.Injective (Except.ok : String → Outcome String) := fun _ _ => Except.ok.inj
  have hdifferent : (namesOf es).Nodup ↔ (made.map Prod.fst).Nodup := by
    rw [namesOf_eq hmade, List.nodup_map_iff hinj]
  have hnamed : .ok "" ∉ namesOf es ↔ ∀ x ∈ made, x.2.id = .ok (.text x.1) := by
    rw [namesOf_eq hmade, List.mem_map_of_injective hinj, List.mem_map]
    constructor
    · intro hempty x hx
      obtain ⟨e, hup⟩ := setsUp_of_mem hmade hx
      exact hup.id_iff.2 fun hname => hempty ⟨x, hx, hname⟩
    · rintro hids ⟨x, hx, hname⟩
      obtain ⟨e, hup⟩ := setsUp_of_mem hmade hx
      exact hup.id_iff.1 (hids x hx) hname
  constructor
  · intro hfaithful
    have hall := setsUp_unique hfaithful.entries hmade
    rw [hall] at hfaithful
    exact ⟨hdifferent.2 hfaithful.names, hnamed.2 hfaithful.ids⟩
  · intro h
    have hnames := hdifferent.1 h.different
    rw [putAll_nil_iff.2 hnames]
    exact .of_ids hmade hnames (hnamed.1 h.named)

/-! ### Names that fall together -/

/-- Entries for adapters in memory under some keys. -/
def inMemory (keys : List Value) : Entries := keys.map fun k => (k, .map [(.text "type", .text "dummy")])

def inMemoryConfig (keys : List Value) : Value := .map [(.text "adapters", .map (inMemory keys))]

def inMemoryAdapter (name : String) : Adapter := .dummy { config := { id := .text name } }

theorem adapterSection_inMemory (keys : List Value) :
    adapterSection (inMemoryConfig keys) = .ok (inMemory keys) := by
  cases keys <;> rfl

theorem addEntries_inMemory {keys : List Value} {names : List String}
    (h : keys.map Value.shown = names.map .ok) (r : Registry) :
    ∃ lines, addEntries token r (inMemory keys) =
      (lines, .ok (putAll r (names.map fun name => (name, inMemoryAdapter name)))) := by
  have hlower : Text.lower "dummy" = "dummy" := by decide +kernel
  induction keys generalizing names r with
  | nil =>
    obtain rfl := List.map_eq_nil_iff.1 h.symm
    exact ⟨[], rfl⟩
  | cons key keys ih =>
    obtain ⟨name, names, rfl, hkey, hkeys⟩ := List.map_eq_cons_iff.1 h.symm
    obtain ⟨line, hadd⟩ : ∃ line, addEntry token r key (.map [(.text "type", .text "dummy")]) =
        .ok (r.put name (inMemoryAdapter name), line) :=
      ⟨_, addEntry_enabled (List.cons_ne_nil _ _) hkey.symm rfl (congrArg Except.ok hlower) rfl⟩
    obtain ⟨lines, hrest⟩ := ih hkeys.symm (r.put name (inMemoryAdapter name))
    refine ⟨line.toList ++ lines, ?_⟩
    show addEntries token r ((key, .map [(.text "type", .text "dummy")]) :: inMemory keys) = _
    rw [addEntries, hadd]
    dsimp only
    rw [hrest]
    rfl

theorem build_inMemory (token : Option String) (keys : List Value) (names : List String)
    (h : keys.map Value.shown = names.map .ok) :
    ∃ lines, build token (inMemoryConfig keys) =
      (lines, .ok (putAll [] (names.map fun name => (name, inMemoryAdapter name)))) := by
  rw [build, adapterSection_inMemory]
  exact addEntries_inMemory h []

theorem build_faithful_mirror : ∃ lines,
    build none (inMemoryConfig [.int 1, .text "mirror"]) =
      (lines, .ok [("1", inMemoryAdapter "1"), ("mirror", inMemoryAdapter "mirror")]) ∧
    Faithful none (inMemory [.int 1, .text "mirror"])
      [("1", inMemoryAdapter "1"), ("mirror", inMemoryAdapter "mirror")] := by
  obtain ⟨lines, hbuild⟩ := build_inMemory none [.int 1, .text "mirror"] ["1", "mirror"] rfl
  have hnames : namesOf (inMemory [.int 1, .text "mirror"]) = [.ok "1", .ok "mirror"] := by rfl
  refine ⟨lines, hbuild, (build_faithful_iff (adapterSection_inMemory _) hbuild).2 ⟨?_, ?_⟩⟩
  · rw [hnames]
    simp
  · rw [hnames]
    simp

/-- Of a number and the same number in text the second takes the place of the first. An empty key names
an adapter that goes by the name of another one. -/
theorem not_faithful_alike :
    (∃ lines, build none (inMemoryConfig [.int 1, .text "1"]) =
      (lines, .ok [("1", inMemoryAdapter "1")]) ∧
      ¬Faithful none (inMemory [.int 1, .text "1"]) [("1", inMemoryAdapter "1")]) ∧
    ∃ lines, build none (inMemoryConfig [.text "", .text "dummy"]) =
      (lines, .ok [("", inMemoryAdapter ""), ("dummy", inMemoryAdapter "dummy")]) ∧
      (inMemoryAdapter "").id = (inMemoryAdapter "dummy").id ∧
      ¬Faithful none (inMemory [.text "", .text "dummy"])
        [("", inMemoryAdapter ""), ("dummy", inMemoryAdapter "dummy")] := by
  obtain ⟨lines, hbuild⟩ := build_inMemory none [.int 1, .text "1"] ["1", "1"] rfl
  obtain ⟨lines', hbuild'⟩ := build_inMemory none [.text "", .text "dummy"] ["", "dummy"] rfl
  refine ⟨⟨lines, hbuild, fun h => ?_⟩, lines', hbuild', rfl, fun h => ?_⟩
  · have hlength := h.entries.length_eq
    cases hlength
  · have hid := h.ids ("", inMemoryAdapter "") List.mem_cons_self
    exact absurd (Value.text.inj (Except.ok.inj hid)) (by decide)

end Syndicate.Registry

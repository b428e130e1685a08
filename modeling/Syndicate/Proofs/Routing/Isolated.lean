import Mathlib.Logic.Relation
import Syndicate.Proofs.Adapter.Stall
import Syndicate.Proofs.Routing.Laid

/-! What is done through the content of one task shows nowhere else: not in the contents of the other
tasks, nor in the item and the rules that the tasks were made of, nor in the copies that adapters
keep. -/

namespace Syndicate

open Store

/-! ### Changes and posts -/

/-- An adapter, and the copies it keeps as the contents of its posts. -/
structure Board where
  adapter : Dummy
  kept : List (Value × DeskItem) := []

/-- The contents of tasks on a desk, and adapters that keep copies in the same store. -/
structure Floor where
  desk : Desk
  boards : List Board

/-- The copies stand for the contents of the posts, in cells that are given away. -/
def Board.Rests (s : Store) (given : Set Nat) (b : Board) : Prop :=
  List.Forall₂ (Beside fun item p => item.Rests s given p.content) b.kept b.adapter.posts

theorem Board.Rests.kept {s s' : Store} {given given' : Set Nat} {b : Board} (h : b.Rests s given)
    (hs : s.Closed given) (hk : Spares given s s') (hg : given ⊆ given') : b.Rests s' given' :=
  h.imp fun _ _ hpair => ⟨hpair.1, (hpair.2.kept hs hk).mono hg⟩

namespace Floor

/-- An adapter is called with a content, of which a copy is made. -/
def give (f : Floor) (n : Nat) (b : Board) (k : Dummy.Call) (c : Content) : Floor :=
  let stall := Dummy.Stall.give ⟨f.desk, b.kept, b.adapter⟩ k c
  ⟨stall.desk, f.boards.set n ⟨stall.adapter, stall.kept⟩⟩

/-- Something is done through the content of one task, which is named by its place, or the content of
any task is posted or takes the place of a post's. -/
inductive Step (i : Nat) (f : Floor) : Floor → Prop
  | change (item changed : DeskItem) (s : Store) (hitem : f.desk.items[i]? = some item)
    (h : item.Changes f.desk.store changed s) :
    Step i f { f with desk := ⟨s, f.desk.items.set i changed⟩ }
  | give (n : Nat) (b : Board) (k : Dummy.Call) (c : Content) (item : DeskItem)
    (hb : f.boards[n]? = some b) (hk : k.content? = some c) (hitem : item ∈ f.desk.items)
    (hc : item.unload f.desk.store = .ok c) :
    Step i f (f.give n b k c)

/-- A tag that a desk adds to the content of the task is such a change. -/
theorem Step.of_tag {f : Floor} {i : Nat} {tag : Value} {d : Desk}
    (h : f.desk.apply (.tag (.int i) tag) = .ok d) : Step i f { f with desk := d } := by
  obtain ⟨⟨n, item⟩, hitem, h⟩ := ok_of_bind h
  obtain ⟨changed, hchanged, h⟩ := ok_of_bind h
  cases h
  obtain ⟨rfl, hitem⟩ := Desk.item_at hitem
  exact .change item changed _ hitem (DeskItem.addTag_changes hchanged)

/-- So is an option that a desk sets at the end of a path into the options. -/
theorem Step.of_option {f : Floor} {i : Nat} {path : List Value} {v : Value} {d : Desk}
    (h : f.desk.apply (.option (.int i) path v) = .ok d) : Step i f { f with desk := d } := by
  obtain ⟨⟨n, item⟩, hitem, h⟩ := ok_of_bind h
  obtain ⟨s, hs, h⟩ := ok_of_bind h
  cases h
  obtain ⟨rfl, hitem⟩ := Desk.item_at hitem
  have hstep := Step.change item item s hitem (DeskItem.assignAt_changes hs)
  obtain ⟨hi, rfl⟩ := List.getElem?_eq_some_iff.1 hitem
  rwa [List.set_getElem_self] at hstep

/-- The tasks on a floor are guarded, and all adapters keep their copies in cells that are given
away. -/
structure Guards (f : Floor) (i : Nat) (given : Set Nat) (cs : List Content) : Prop where
  desk : Routing.Guards f.desk i given cs
  boards : ∀ b ∈ f.boards, b.Rests f.desk.store given

variable {f f' : Floor} {i : Nat} {given : Set Nat} {cs : List Content}

theorem Guards.change {item changed : DeskItem} {s : Store} (h : f.Guards i given cs)
    (hitem : f.desk.items[i]? = some item) (hchange : item.Changes f.desk.store changed s) :
    Tends given f.desk.store s ∧
      Guards { f with desk := ⟨s, f.desk.items.set i changed⟩ } i given cs := by
  obtain ⟨ht, hchanged⟩ := hchange.tends h.desk.apart (h.desk.mine item hitem)
  refine ⟨ht, ⟨ht.apart, by simp [h.desk.count], fun x hx => ?_, fun j c hj hc => ?_⟩,
    fun b hb => (h.boards b hb).kept h.desk.apart.closed ht.spares subset_rfl⟩
  · obtain ⟨hi, -⟩ := List.getElem?_eq_some_iff.1 hitem
    rw [List.getElem?_set_self hi] at hx
    exact Option.some.inj hx ▸ hchanged
  · rw [List.getElem?_set_ne hj.symm]
    exact h.desk.others_kept ht subset_rfl hj hc

theorem Guards.give {n : Nat} {b : Board} {k : Dummy.Call} {c : Content} (h : f.Guards i given cs)
    (hb : f.boards[n]? = some b) (hk : k.content? = some c) :
    ∃ given', given ⊆ given' ∧ Spares given f.desk.store (f.give n b k c).desk.store ∧
      (f.give n b k c).Guards i given' cs := by
  obtain ⟨given', hg, hapart, hown, hrests⟩ := DeskItem.load_rests h.desk.apart c
  have ht := (h.desk.apart.add (.map c.options)).1
  have hboards := fun b hb => (h.boards b hb).kept h.desk.apart.closed ht.spares hg
  refine ⟨given', hg, ht.spares, ⟨hapart, h.desk.count, fun x hx => ?_, fun j c hj hc => ?_⟩, ?_⟩
  · show x.options.LeadsInto (own given' (DeskItem.load f.desk.store c).2)
    rw [hown]
    exact h.desk.mine x hx
  · exact h.desk.others_kept ht hg hj hc
  · intro b' hb'
    rcases List.mem_or_eq_of_mem_set hb' with hb' | rfl
    · exact hboards b' hb'
    · exact Dummy.Stall.give_kept hk (hboards b (List.mem_of_getElem? hb)) hrests

/-- Whatever is done through one task's content and whatever is posted, what is in cells that are
given away stays there. -/
theorem Step.guards (h : Step i f f') (hf : f.Guards i given cs) :
    ∃ given', given ⊆ given' ∧ Spares given f.desk.store f'.desk.store ∧
      f'.Guards i given' cs := by
  cases h with
  | change item changed s hitem hchange =>
    obtain ⟨ht, hguards⟩ := hf.change hitem hchange
    exact ⟨given, subset_rfl, ht.spares, hguards⟩
  | give n b k c item hb hk hitem hc => exact hf.give hb hk

theorem run_guards (h : Relation.ReflTransGen (Step i) f f') (hf : f.Guards i given cs) :
    ∃ given', given ⊆ given' ∧ Spares given f.desk.store f'.desk.store ∧
      f'.Guards i given' cs := by
  induction h with
  | refl => exact ⟨given, subset_rfl, .refl given f.desk.store, hf⟩
  | tail _ hstep ih =>
    obtain ⟨given₁, hg, hk, h₁⟩ := ih
    obtain ⟨given₂, hg', hk', h₂⟩ := hstep.guards h₁
    exact ⟨given₂, hg.trans hg', hk.trans (hk'.mono hg), h₂⟩

end Floor

/-! ### Evaluation in a store -/

/-- A rule that is still to be read. -/
def RuleEntry.raw? : RuleEntry → Option Value
  | .rule _ => none
  | .raw v => some v

/-- What a caller has in a store: an item or a mapping, mappings that are rules, and adapters. -/
structure Scene where
  store : Store
  input : Given
  rules : List Slot
  boards : List Board

namespace Scene

/-- The item and the rules of a scene stand for others. Nothing in its store dangles. -/
structure Holds (scene : Scene) (src : Source) (rules : List RuleEntry) : Prop where
  closed : scene.store.Closed (Set.Iio scene.store.length)
  input : scene.input.Stands scene.store (Set.Iio scene.store.length) src
  rules : List.Forall₂ (fun slot v => slot.Rests scene.store (Set.Iio scene.store.length) v)
    scene.rules (rules.filterMap RuleEntry.raw?)
  boards : ∀ b ∈ scene.boards, b.Rests scene.store (Set.Iio scene.store.length)

/-- The contents of tasks whose channels are in some slots. -/
def lay (scene : Scene) (channels : List Slot) : Outcome Desk := do
  let (item, s) ← scene.input.itemIn scene.store
  channels.foldlM (Routing.layTask item) ⟨s, []⟩

/-- All that there was before an evaluation, all tasks of it but one, and all that adapters keep are
on a floor as they were. -/
structure Intact (scene : Scene) (src : Source) (rules : List RuleEntry) (ts : List Task) (i : Nat)
    (f : Floor) : Prop where
  cells : ∀ a < scene.store.length, f.desk.store[a]? = scene.store[a]?
  input : scene.input.Stands f.desk.store (Set.Iio scene.store.length) src
  rules : List.Forall₂ (fun slot v => slot.Rests f.desk.store (Set.Iio scene.store.length) v)
    scene.rules (rules.filterMap RuleEntry.raw?)
  tasks : ∀ j t, j ≠ i → ts[j]? = some t →
    ∃ item, f.desk.items[j]? = some item ∧ item.unload f.desk.store = .ok t.content
  posts : ∀ b ∈ f.boards, List.Forall₂
    (Beside fun item p => item.unload f.desk.store = .ok p.content) b.kept b.adapter.posts

end Scene

namespace Routing

theorem yields_mem_of_walked {steps : List Step} {ts : List Task}
    (h : (walked steps).outcome = .ok ts) : ∀ t ∈ ts, .yields t ∈ steps := by
  unfold walked at h
  dsimp only at h
  split at h
  · cases h
  · cases h
    intro t ht
    obtain ⟨x, hx, htask⟩ := List.mem_filterMap.1 ht
    cases x <;> cases htask
    exact hx

/-- A task for an item has the channel of its destination, and for its content the item with that
channel. -/
theorem yields_mem_stepsOf {known : String → Bool} {now : Instant} {c : Content} {e : RuleEntry}
    {t : Task} (h : .yields t ∈ stepsOf known now c e) : t.content = sentTo c t.channel ∧
      ∃ r, e.rule? = .ok r ∧ ∃ d ∈ r.publish, t.channel = d.channel := by
  unfold stepsOf at h
  split at h
  · cases List.mem_singleton.1 h
  · rename_i r hr
    split at h
    · cases List.mem_singleton.1 h
    · cases h
    · obtain ⟨d, hd, hstep⟩ := List.mem_map.1 h
      unfold stepTo at hstep
      split at hstep
      · split at hstep <;> cases hstep
        exact ⟨rfl, r, hr, d, hd, rfl⟩
      · cases hstep

/-- All tasks of an evaluation are for the item that was read. -/
theorem tasks_destined {known : String → Bool} {now : Instant} {validator : Validator} {src : Source}
    {rules : List RuleEntry} {ts : List Task}
    (h : (tasks known now validator src (.ok rules)).outcome = .ok ts) :
    ∃ c, src.content = .ok c ∧ ∀ t ∈ ts, t.content = sentTo c t.channel ∧
      ∃ e ∈ rules, ∃ r, e.rule? = .ok r ∧ ∃ d ∈ r.publish, t.channel = d.channel := by
  rw [tasks_eq_evaluation] at h
  unfold evaluation at h
  split at h
  · cases h
  · rename_i c hc
    split at h
    · cases h
    · split at h
      · refine ⟨c, hc, fun t ht => ?_⟩
        obtain ⟨e, he, hstep⟩ := List.mem_flatMap.1 (yields_mem_of_walked h t ht)
        obtain ⟨hcontent, hrule⟩ := yields_mem_stepsOf hstep
        exact ⟨hcontent, e, he, hrule⟩
      · cases h

end Routing

namespace Scene

variable {scene : Scene} {src : Source} {rules : List RuleEntry} {channels : List Slot}

/-- The contents of tasks are laid without touching what there is. For each of them, the cells of all
others may be given away together with those there were. -/
theorem Holds.laid (h : scene.Holds src rules) {c : Content} (hc : src.content = .ok c)
    {vs : List Value} (hchannels : List.Forall₂ (fun slot v =>
      slot.Rests scene.store (Set.Iio scene.store.length) v) channels vs)
    (htext : ∀ v ∈ vs, v.isTextual = true) (i : Nat) :
    ∃ d given, scene.lay channels = .ok d ∧ Set.Iio scene.store.length ⊆ given ∧
      Spares (Set.Iio scene.store.length) scene.store d.store ∧
      Routing.Guards d i given (vs.map (Routing.sentTo c)) := by
  obtain ⟨item, t, hitem, hclosed, hlies⟩ := h.input.itemIn h.closed hc
  have hread := spares_append scene.store t
  have hsub : Set.Iio scene.store.length ⊆ Set.Iio (scene.store ++ t).length :=
    Set.Iio_subset_Iio hread.grows
  have hslots := hchannels.imp fun _ _ hslot => (hslot.kept h.closed hread).mono hsub
  have hempty : Routing.Guards ⟨scene.store ++ t, []⟩ i (Set.Iio (scene.store ++ t).length) [] :=
    ⟨hclosed.apart, rfl, by simp, by simp⟩
  obtain ⟨d, given, hd, hg, hk, hguards⟩ := hempty.layEach hlies hslots htext
  refine ⟨d, given, ?_, hsub.trans hg, hread.trans (hk.mono hsub), hguards⟩
  unfold lay
  rw [hitem]
  exact hd

theorem Holds.intact (h : scene.Holds src rules) {ts : List Task} {i : Nat} {given : Set Nat}
    {f : Floor} (hf : f.Guards i given (ts.map Task.content))
    (hk : Spares (Set.Iio scene.store.length) scene.store f.desk.store) :
    scene.Intact src rules ts i f where
  cells := hk.leaves
  input := h.input.kept h.closed hk
  rules := h.rules.imp fun _ _ hrule => hrule.kept h.closed hk
  tasks := by
    intro j t hj ht
    have hcontent : (ts.map Task.content)[j]? = some t.content := by rw [List.getElem?_map, ht]; rfl
    obtain ⟨item, hitem, hrests⟩ := hf.desk.others j t.content hj hcontent
    exact ⟨item, hitem, hrests.unload⟩
  posts b hb := (hf.boards b hb).imp fun _ _ hpost => ⟨hpost.1, hpost.2.unload⟩

/-- The contents of the tasks of an evaluation lie in cells of their own. Whatever is then done
through one of them, and whatever contents adapters are called with before, in between and after, the
other contents, the item, the rules and the posts stay as they are. -/
theorem lay_isolated (hscene : scene.Holds src rules)
    (htext : ∀ e ∈ rules, ∀ r, e.rule? = .ok r → ∀ d ∈ r.publish, d.channel.isTextual = true)
    {known : String → Bool} {now : Instant} {validator : Validator} {ts : List Task}
    (hts : (Routing.tasks known now validator src (.ok rules)).outcome = .ok ts)
    (hchannels : List.Forall₂ (fun slot v =>
      slot.Rests scene.store (Set.Iio scene.store.length) v) channels (ts.map Task.channel)) :
    ∃ d, scene.lay channels = .ok d ∧ d.view = .ok (ts.map Task.content) ∧
      ∀ i f, Relation.ReflTransGen (Floor.Step i) ⟨d, scene.boards⟩ f →
        scene.Intact src rules ts i f := by
  obtain ⟨c, hc, hdestined⟩ := Routing.tasks_destined hts
  have htexts : ∀ v ∈ ts.map Task.channel, v.isTextual = true := fun v hv => by
    obtain ⟨t, ht, rfl⟩ := List.mem_map.1 hv
    obtain ⟨-, e, he, r, hr, d, hd, hchannel⟩ := hdestined t ht
    exact hchannel ▸ htext e he r hr d hd
  have hcontents : (ts.map Task.channel).map (Routing.sentTo c) = ts.map Task.content := by
    rw [List.map_map]
    exact List.map_congr_left fun t ht => (hdestined t ht).1.symm
  have hlaid := hscene.laid hc hchannels htexts
  rw [hcontents] at hlaid
  -- With no task at anybody's disposal, the desk shows them all.
  obtain ⟨d, _, hd, -, -, hall⟩ := hlaid (ts.map Task.content).length
  refine ⟨d, hd, hall.view, fun i f hrun => ?_⟩
  obtain ⟨d', given, hd', hg, hk, hguards⟩ := hlaid i
  obtain rfl := Except.ok.inj (hd.symm.trans hd')
  have hboards := fun b hb => (hscene.boards b hb).kept hscene.closed hk hg
  obtain ⟨given', -, hk', hend⟩ := Floor.run_guards hrun ⟨hguards, hboards⟩
  exact hscene.intact hend (hk.trans (hk'.mono hg))

/-- A mapping with a row among its options, the item it is read as, and a rule with two destinations,
one of which has a channel. -/
def letter : Value := .map [(.text "text", .text "Hi"),
  (.text "options", .map [(.text "k", .list [.int 1])])]

def written : Content where
  text := .text "Hi"
  options := [(.text "k", .list [.int 1])]

def twofold : Value := .map [(.text "name", .text "r"), (.text "publish", .list
  [.map [(.text "adapter", .text "a")],
   .map [(.text "adapter", .text "a"), (.text "channel", .text "@x")]])]

/-- The mapping and the rule in a store, and an adapter without posts. -/
def lettered : Scene where
  store := ((Store.add [] letter).2.add twofold).2
  input := .mapping (Store.add [] letter).1
  rules := [((Store.add [] letter).2.add twofold).1]
  boards := [{ adapter := {} }]

theorem lettered_holds : lettered.Holds (.raw letter) [.raw twofold] := by
  have hempty : Store.Closed [] (Set.Iio (List.length ([] : Store))) := fun a ha =>
    absurd ha (Nat.not_lt_zero a)
  have hclosed := hempty.add letter
  have hspares : Spares (Set.Iio (Store.add [] letter).2.length) (Store.add [] letter).2
      lettered.store := ⟨length_le_add _ twofold, sameBelow_add _ twofold⟩
  refine ⟨hclosed.add twofold, .mapping (((hempty.add_rests letter).kept hclosed hspares).mono ?_),
    .cons (hclosed.add_rests twofold) .nil, fun b hb => List.mem_singleton.1 hb ▸ .nil⟩
  exact Set.Iio_subset_Iio hspares.grows

/-- The first task's content is posted, and then gets a tag and is changed inside its options. -/
theorem lettered_isolated : ∃ ts d f,
    (Routing.tasks (· == "a") default Validator.body (.raw letter) (.ok [.raw twofold])).outcome =
      .ok ts ∧
    lettered.lay [.scalar .null, .scalar (.text "@x")] = .ok d ∧
    Relation.ReflTransGen (Floor.Step 0) ⟨d, lettered.boards⟩ f ∧
    f.desk.view = .ok [
      { written with tags := [.text "t"], options := [(.text "k", .list [.int 2])] },
      written.setOption "channel" (.text "@x")] ∧
    f.boards.map (fun b => b.adapter.posts) = [[(.text "dummy-post-1", ⟨written, false⟩)]] ∧
    lettered.Intact (.raw letter) [.raw twofold] ts 0 f := by
  have hts : (Routing.tasks (· == "a") default Validator.body (.raw letter)
      (.ok [.raw twofold])).outcome = .ok [⟨"a", written, 0, .text "r", .null⟩,
        ⟨"a", written.setOption "channel" (.text "@x"), 0, .text "r", .text "@x"⟩] := by rfl
  have htext : ∀ e ∈ [RuleEntry.raw twofold], ∀ r, e.rule? = .ok r →
      ∀ d ∈ r.publish, d.channel.isTextual = true := by
    intro e he r hr
    obtain rfl := List.mem_singleton.1 he
    have hrule : (RuleEntry.raw twofold).rule? =
        .ok ⟨some "r", {}, [⟨"a", .int 0, .null⟩, ⟨"a", .int 0, .text "@x"⟩]⟩ := by rfl
    obtain rfl := Except.ok.inj (hrule.symm.trans hr)
    simp [Value.isTextual]
  obtain ⟨d, hd, -, hintact⟩ := lay_isolated lettered_holds htext hts
    (.cons (Slot.rests_scalar _ _ _) (.cons (Slot.rests_scalar _ _ _) .nil))
  obtain ⟨d', item, f, tagged, changed, hd', hitem, hunload, hf, htag, hoption, hview, hposts⟩ :
      ∃ d' item f tagged changed,
        lettered.lay [.scalar .null, .scalar (.text "@x")] = .ok d' ∧
        d'.items[0]? = some item ∧ item.unload d'.store = .ok written ∧
        Floor.give ⟨d', lettered.boards⟩ 0 { adapter := {} } (.publish written) written = f ∧
        f.desk.apply (.tag (.int 0) (.text "t")) = .ok tagged ∧
        tagged.apply (.option (.int 0) [.text "k", .int 0] (.int 2)) = .ok changed ∧
        changed.view = .ok [
          { written with tags := [.text "t"], options := [(.text "k", .list [.int 2])] },
          written.setOption "channel" (.text "@x")] ∧
        f.boards.map (fun b => b.adapter.posts) = [[(.text "dummy-post-1", ⟨written, false⟩)]] :=
    ⟨_, _, _, _, _, rfl, rfl, rfl, rfl, rfl, rfl, rfl, rfl⟩
  obtain rfl := Except.ok.inj (hd.symm.trans hd')
  have hgive : Floor.Step 0 ⟨d, lettered.boards⟩ f :=
    hf ▸ .give 0 _ (.publish written) written item rfl rfl (List.mem_of_getElem? hitem) hunload
  have hrun := ((Relation.ReflTransGen.single hgive).tail (.of_tag htag)).tail (.of_option hoption)
  exact ⟨_, d, _, hts, hd, hrun, hview, hposts, hintact 0 _ hrun⟩

end Scene

end Syndicate

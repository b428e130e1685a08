import Syndicate.Proofs.Adapter.Dummy
import Syndicate.Proofs.Content.Apart

/-! A caller and an adapter in memory. The caller has items, changes them and calls the adapter with
them; the adapter keeps copies, in which later changes do not show. -/

namespace Syndicate

namespace Dummy

variable {own : String} {author : Value} {d : Dummy}

/-! ### The caller and the adapter -/

/-- A caller with items on a desk, and an adapter that keeps copies in the same store. -/
structure Stall where
  desk : Desk := {}
  kept : List (Value × DeskItem) := []
  adapter : Dummy

namespace Stall

/-- A call with an item of the caller's, of which a copy is made. -/
def give (s : Stall) (k : Call) (c : Content) : Stall where
  desk := { s.desk with store := (DeskItem.load s.desk.store c).2 }
  kept := match (k.run.outcome s.adapter).1 with
    | .ok (.ref r) => Entries.put s.kept r.id (DeskItem.load s.desk.store c).1
    | _ => s.kept
  adapter := (k.run.outcome s.adapter).2

/-- A call without an item. -/
def ask (s : Stall) (k : Call) : Stall where
  desk := s.desk
  kept := match k, (k.run.outcome s.adapter).1 with
    | .delete id, .ok _ => s.kept.filter fun e => !e.1.alike (.text id)
    | _, _ => s.kept
  adapter := (k.run.outcome s.adapter).2

/-- The caller makes an item, changes one, or calls the adapter. -/
inductive Step : Stall → Trace → Stall → Prop
  | load (s : Stall) (c : Content) :
    Step s [] { s with desk := s.desk.push (DeskItem.load s.desk.store c) }
  | edit (s : Stall) (e : Desk.Edit) (desk : Desk) (h : s.desk.apply e = .ok desk) :
    Step s [] { s with desk := desk }
  | give (s : Stall) (k : Call) (c : Content) (item : DeskItem) (hk : k.content? = some c)
    (hitem : item ∈ s.desk.items) (hc : item.unload s.desk.store = .ok c) :
    Step s [(k, (k.run.outcome s.adapter).1)] (s.give k c)
  | ask (s : Stall) (k : Call) (hk : k.content? = none) :
    Step s [(k, (k.run.outcome s.adapter).1)] (s.ask k)

inductive Run : Stall → Trace → Stall → Prop
  | nil (s : Stall) : Run s [] s
  | cons {s t u : Stall} {first trace : Trace} (hstep : Step s first t) (hrun : Run t trace u) :
    Run s (first ++ trace) u

/-- What is kept stands for the contents of the posts, in cells that the caller does not reach. -/
structure Keeps (s : Stall) (given : Set Nat) : Prop where
  owns : s.desk.Owns given
  kept : List.Forall₂ (Beside fun item p => item.Rests s.desk.store given p.content)
    s.kept s.adapter.posts

theorem Keeps.of_tends {s : Stall} {given : Set Nat} (h : s.Keeps given) {desk : Desk}
    (howns : desk.Owns given) (ht : Store.Tends given s.desk.store desk.store) :
    Keeps { s with desk := desk } given where
  owns := howns
  kept := h.kept.imp fun _ _ hpair => ⟨hpair.1, hpair.2.of_tends h.owns.apart.closed ht⟩

/-- A call changes the rows of what is kept and of the posts in the same way. -/
theorem give_kept {s : Stall} {given : Set Nat} {store : Store} {k : Call} {c : Content}
    (hk : k.content? = some c)
    (hkept : List.Forall₂ (Beside fun item p => item.Rests store given p.content)
      s.kept s.adapter.posts)
    (hrests : (DeskItem.load s.desk.store c).1.Rests store given c) :
    List.Forall₂ (Beside fun item p => item.Rests store given p.content)
      (s.give k c).kept (s.give k c).adapter.posts := by
  unfold Stall.give
  dsimp only
  rcases bound_of_content s.adapter hk with ⟨f, hf⟩ | ⟨r, p, hp, hr, hposts⟩
  · rw [hf]
    exact hkept
  · rw [hr, hposts]
    exact forall₂_put hkept r.id (hp ▸ hrests)

theorem Keeps.give {s : Stall} {given : Set Nat} (h : s.Keeps given) {k : Call} {c : Content}
    (hk : k.content? = some c) : ∃ given', (s.give k c).Keeps given' := by
  obtain ⟨given', hsub, hapart, hown, hrests⟩ := DeskItem.load_rests h.owns.apart c
  have ht := (h.owns.apart.add (.map c.options)).1
  have hkept : List.Forall₂ (Beside fun item p =>
      item.Rests (DeskItem.load s.desk.store c).2 given' p.content) s.kept s.adapter.posts :=
    h.kept.imp fun _ _ hpair => ⟨hpair.1, (hpair.2.of_tends h.owns.apart.closed ht).mono hsub⟩
  refine ⟨given', ⟨hapart, fun item hitem => ?_⟩, give_kept hk hkept hrests⟩
  show item.options.LeadsInto (Store.own given' (DeskItem.load s.desk.store c).2)
  rw [hown]
  exact h.owns.items item hitem

theorem Keeps.ask {s : Stall} {given : Set Nat} (h : s.Keeps given) {k : Call}
    (hk : k.content? = none) : (s.ask k).Keeps given := by
  refine ⟨h.owns, ?_⟩
  unfold Stall.ask
  cases k with
  | publish c | update id c => cases hk
  | delete id =>
    dsimp only
    rw [posts_run_delete]
    cases (((Call.delete id).run).outcome s.adapter).1 with
    | error f => exact h.kept
    | ok y => exact forall₂_filter h.kept fun k => !k.alike (.text id)
  | feedback id =>
    dsimp only
    rw [posts_run_feedback]
    exact h.kept
  | reply t text =>
    dsimp only
    rw [posts_run_reply]
    exact h.kept

/-- What a stall holds is on a shelf. -/
structure Shows (own : String) (author : Value) (s : Stall) (shelf : Shelf) : Prop where
  keeps : ∃ given, s.Keeps given
  holds : Holds own author s.adapter shelf

theorem Step.shelf {s t : Stall} {shelf : Shelf} {first : Trace} (h : Step s first t)
    (hs : s.Shows own author shelf) :
    ∃ shelf', Shelf.Run author shelf first shelf' ∧ t.Shows own author shelf' ∧
      ∀ v ∈ first.flatMap posting, ∃ n, v = .text (postName own n) := by
  obtain ⟨⟨given, hkeeps⟩, hholds⟩ := hs
  cases h with
  | load c =>
    obtain ⟨howns, ht⟩ := hkeeps.owns.load c
    exact ⟨shelf, .nil _, ⟨⟨given, hkeeps.of_tends howns ht⟩, hholds⟩, by simp⟩
  | edit e desk he =>
    obtain ⟨howns, ht⟩ := hkeeps.owns.apply he
    exact ⟨shelf, .nil _, ⟨⟨given, hkeeps.of_tends howns ht⟩, hholds⟩, by simp⟩
  | give k c item hk hitem hc =>
    obtain ⟨shelf', hstep, hholds'⟩ := hholds.step k
    refine ⟨shelf', .cons hstep (.nil _), ⟨hkeeps.give hk, hholds'⟩, fun v hv => ?_⟩
    rw [List.flatMap_singleton] at hv
    exact posting_name hholds.id hv
  | ask k hk =>
    obtain ⟨shelf', hstep, hholds'⟩ := hholds.step k
    refine ⟨shelf', .cons hstep (.nil _), ⟨⟨given, hkeeps.ask hk⟩, hholds'⟩, fun v hv => ?_⟩
    rw [List.flatMap_singleton] at hv
    exact posting_name hholds.id hv

theorem Run.shelf {s t : Stall} {shelf : Shelf} {trace : Trace} (h : Run s trace t)
    (hs : s.Shows own author shelf) :
    ∃ shelf', Shelf.Run author shelf trace shelf' ∧ t.Shows own author shelf' ∧
      ∀ v ∈ trace.flatMap posting, ∃ n, v = .text (postName own n) := by
  induction h generalizing shelf with
  | nil s => exact ⟨shelf, .nil _, hs, by simp⟩
  | cons hstep _ ih =>
    obtain ⟨shelf₁, hfirst, hs₁, hnames₁⟩ := hstep.shelf hs
    obtain ⟨shelf₂, hrest, hs₂, hnames₂⟩ := ih hs₁
    refine ⟨shelf₂, hfirst.append hrest, hs₂, fun v hv => ?_⟩
    rw [List.flatMap_append] at hv
    exact (List.mem_append.1 hv).elim (hnames₁ v) (hnames₂ v)

/-- A stall with an empty desk and a new adapter. -/
def opened (config : AdapterConfig) (reject : Bool) : Stall where
  adapter := { config := config, rejectVerify := reject }

theorem opened_shows {config : AdapterConfig} (h : config.id.isTextual = true) (reject : Bool) :
    ∃ own, (opened config reject).Shows own (opened config reject).adapter.author {} := by
  have hid : ∃ own, (opened config reject).adapter.id = .text own := by
    unfold Dummy.id opened
    cases hc : config.id <;> simp_all [Value.isTextual, Value.truthy]
    split <;> exact ⟨_, rfl⟩
  obtain ⟨own, hid⟩ := hid
  have howns : (opened config reject).desk.Owns ∅ := by
    refine ⟨⟨Set.empty_subset _, fun a ha => ?_, fun a ha => ?_⟩, by simp [opened]⟩
    · exact absurd ha (Set.notMem_empty a)
    · exact absurd ha.1 (Nat.not_lt_zero a)
  exact ⟨own, ⟨∅, howns, .nil⟩, hid, rfl, ⟨fun _ => rfl, by simp [opened]⟩,
    ⟨fun _ => rfl, by simp [opened]⟩, by simp⟩

/-- Whatever a caller does, a new adapter holds what is on a shelf after the same calls. The content
of a post is the one that came with the call, also in the cells where it is kept. No id is given out
twice, nor to posts of two adapters with different ids. -/
theorem run_shelf {config : AdapterConfig} (hconfig : config.id.isTextual = true) (reject : Bool)
    {trace : Trace} {s : Stall} (h : Run (opened config reject) trace s) :
    (∃ shelf, Shelf.Run (opened config reject).adapter.author {} trace shelf ∧
      Binds s.adapter.posts shelf.posts ∧ Binds s.adapter.comments shelf.comments) ∧
    List.Forall₂ (Beside fun item p => item.unload s.desk.store = .ok p.content)
      s.kept s.adapter.posts ∧
    (trace.flatMap issue).Nodup ∧
    ∀ (config' : AdapterConfig) (reject' : Bool) (trace' : Trace) (s' : Stall),
      config'.id.isTextual = true → Run (opened config' reject') trace' s' →
      s'.adapter.id ≠ s.adapter.id →
      List.Disjoint (trace.flatMap posting) (trace'.flatMap posting) := by
  obtain ⟨own, hshows⟩ := opened_shows hconfig reject
  obtain ⟨shelf, hrun, ⟨⟨given, hkeeps⟩, hholds⟩, hnames⟩ := h.shelf hshows
  refine ⟨⟨shelf, hrun, hholds.posts, hholds.comments⟩, ?_, ?_, ?_⟩
  · exact hkeeps.kept.imp fun _ _ hpair => ⟨hpair.1, hpair.2.unload⟩
  · obtain ⟨hids, hnodup⟩ := hrun.issued
    have htext : Function.Injective Value.text := fun _ _ he => Value.text.inj he
    have hissued := List.Nodup.map htext (hnodup List.nodup_nil)
    rwa [hids] at hissued
  · intro config' reject' trace' s' hconfig' h' hne v hv hv'
    obtain ⟨own', hshows'⟩ := opened_shows hconfig' reject'
    obtain ⟨_, -, ⟨-, hholds'⟩, hnames'⟩ := h'.shelf hshows'
    obtain ⟨n, rfl⟩ := hnames v hv
    obtain ⟨n', hn'⟩ := hnames' _ hv'
    have hown := (postName_inj (Value.text.inj hn')).1
    exact hne (by rw [hholds'.id, hholds.id, hown])

/-- A caller with any items can make any calls. -/
theorem exists_run (s : Stall) (ks : List Call) :
    ∃ trace t, Run s trace t ∧ trace.map Prod.fst = ks := by
  induction ks generalizing s with
  | nil => exact ⟨[], s, .nil s, rfl⟩
  | cons k ks ih =>
    cases hk : k.content? with
    | none =>
      obtain ⟨trace, t, hrun, hcalls⟩ := ih (s.ask k)
      exact ⟨_, t, .cons (.ask s k hk) hrun, congrArg (k :: ·) hcalls⟩
    | some c =>
      let loaded : Stall := { s with desk := s.desk.push (DeskItem.load s.desk.store c) }
      have hitem : (DeskItem.load s.desk.store c).1 ∈ loaded.desk.items := by
        exact List.mem_append_right _ (List.mem_singleton_self _)
      have hc : (DeskItem.load s.desk.store c).1.unload loaded.desk.store = .ok c :=
        (DeskItem.load_shows s.desk.store c).1.unload (Nat.le_refl _)
      obtain ⟨trace, t, hrun, hcalls⟩ := ih (loaded.give k c)
      exact ⟨_, t, .cons (.load s c) (.cons (.give loaded k c _ hk hitem hc) hrun),
        congrArg (k :: ·) hcalls⟩

/-- An item with a row among its options. -/
def notice : Content where
  text := .text "Hi"
  options := [(.text "k", .list [.int 1])]

theorem run_shelf_notice : ∃ trace s, Run (opened { id := .text "d" } false) trace s ∧
    s.desk.view = .ok [{ notice with options := [(.text "k", .list [.int 2])] }] ∧
    s.adapter.posts = [(.text (postName "d" 1), ⟨notice, false⟩)] ∧
    List.Forall₂ (Beside fun item p => item.unload s.desk.store = .ok p.content)
      s.kept s.adapter.posts := by
  let s₁ : Stall := { opened { id := .text "d" } false with
    desk := (opened { id := .text "d" } false).desk.push (DeskItem.load [] notice) }
  obtain ⟨desk, hedit, hview⟩ : ∃ desk : Desk, (s₁.give (.publish notice) notice).desk.apply
      (.option (.int 0) [.text "k", .int 0] (.int 2)) = .ok desk ∧
      desk.view = .ok [{ notice with options := [(.text "k", .list [.int 2])] }] := ⟨_, rfl, rfl⟩
  have hrun : Run (opened { id := .text "d" } false) _
      { s₁.give (.publish notice) notice with desk := desk } :=
    .cons (.load _ notice) (.cons (.give s₁ (.publish notice) notice _ rfl List.mem_cons_self rfl)
      (.cons (.edit _ _ desk hedit) (.nil _)))
  have hposts : (s₁.give (.publish notice) notice).adapter.posts =
      [(.text (postName "d" 1), ⟨notice, false⟩)] := rfl
  exact ⟨_, _, hrun, hview, hposts, (run_shelf rfl false hrun).2.1⟩

end Stall

end Dummy

end Syndicate

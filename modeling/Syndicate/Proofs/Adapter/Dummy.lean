import Mathlib.Data.List.Nodup
import Mathlib.Logic.Function.Basic
import Syndicate.Adapter.Dummy
import Syndicate.Proofs.Adapter.Telegram

/-! What the adapter in memory keeps. Its posts and comments are always those of a shelf, on which
contents and comments are bound to ids, and no id is ever given out twice. -/

namespace Syndicate

/-! ### Numbered names -/

theorem dash_notMem_toDigits (n : Nat) : '-' ∉ Nat.toDigits 10 n := fun h => by
  simpa using Nat.isDigit_of_mem_toDigits (by decide) (by decide) h

/-- What stands before the last dash and the number after it can be told from a numbered name. -/
theorem numbered_inj {a b : String} {m n : Nat}
    (h : a ++ "-" ++ toString m = b ++ "-" ++ toString n) : a = b ∧ m = n := by
  have hlist : a.toList ++ '-' :: Nat.toDigits 10 m = b.toList ++ '-' :: Nat.toDigits 10 n := by
    simpa [Nat.toString_eq_repr] using congrArg String.toList h
  have hback : ∀ (cs : List Char) (k : Nat),
      (cs ++ '-' :: Nat.toDigits 10 k).reverse.takeWhile (· ≠ '-') =
        (Nat.toDigits 10 k).reverse := by
    intro cs k
    have hdigits : ∀ c ∈ (Nat.toDigits 10 k).reverse, decide (c ≠ '-') = true := fun c hc => by
      rw [decide_eq_true_eq]
      rintro rfl
      exact dash_notMem_toDigits k (List.mem_reverse.1 hc)
    rw [List.reverse_append, List.reverse_cons, List.append_assoc,
      List.takeWhile_append_of_pos hdigits]
    simp
  have hdigits : Nat.toDigits 10 m = Nat.toDigits 10 n := by
    rw [← List.reverse_inj, ← hback a.toList, ← hback b.toList, hlist]
  have hnumber : m = n := by simpa using congrArg (Nat.ofDigitChars 10 · 0) hdigits
  rw [hdigits] at hlist
  exact ⟨String.toList_injective (List.append_cancel_right hlist), hnumber⟩

namespace Dummy

/-! ### Calls -/

inductive Call where
  | publish (c : Content)
  | update (id : String) (c : Content)
  | delete (id : String)
  | feedback (id : String)
  | reply (target : Target) (text : Value)

/-- What a call comes to. -/
inductive Yield where
  | ref (r : PostRef)
  | answer (v : Value)
  | feedback (fs : List Feedback)

namespace Call

def run : Call → Act Dummy Yield
  | publish c => do pure (.ref (← Dummy.publish c))
  | update id c => do pure (.ref (← Dummy.update (.text id) c))
  | delete id => do pure (.answer (← Dummy.delete (.text id)))
  | feedback id => do
    let d ← get
    pure (.feedback (← Act.ofOutcome (d.feedback (.text id))))
  | reply target text => do pure (.ref (← Dummy.reply target text))

/-- The item that a call brings along. -/
def content? : Call → Option Content
  | publish c | update _ c => some c
  | _ => none

/-- The post that a call is about. -/
def post? : Call → Option String
  | update id _ | delete id | feedback id => some id
  | _ => none

/-- What a call says when it misses its post. -/
def missing (id : String) : Call → PublishProblem
  | feedback _ => .feedbackMissing (.text id)
  | _ => .postMissing (.text id)

end Call

/-- The text of an item is not too long. -/
def Fits (c : Content) : Prop := checkLength maxLength c.text = .ok ()

theorem fits_iff {c : Content} (h : c.text.isTextual = true) :
    Fits c ↔ c.plainText.length ≤ 280 :=
  Content.checkLength_ok_iff h 280 (by decide)

/-! ### The shelf -/

/-- What is bound to each id, and all ids that were ever given out. -/
structure Shelf where
  posts : String → Option Post := fun _ => none
  comments : String → Option Comment := fun _ => none
  issued : List String := []

namespace Shelf

/-- What a call may do. Whoever writes comments has a name. -/
inductive Step (author : Value) : Shelf → Call → Outcome Yield → Shelf → Prop
  | publish (s : Shelf) (c : Content) (id : String) (r : PostRef) (hfits : Fits c)
    (hnew : id ∉ s.issued) (hid : r.id = .text id) :
    Step author s (.publish c) (.ok (.ref r))
      { s with posts := Function.update s.posts id (some ⟨c, false⟩), issued := s.issued ++ [id] }
  | update (s : Shelf) (id : String) (c : Content) (r : PostRef) (hfits : Fits c)
    (hlive : s.posts id ≠ none) (hid : r.id = .text id) :
    Step author s (.update id c) (.ok (.ref r))
      { s with posts := Function.update s.posts id (some ⟨c, true⟩) }
  | delete (s : Shelf) (id : String) (hlive : s.posts id ≠ none) :
    Step author s (.delete id) (.ok (.answer (.bool true)))
      { s with posts := Function.update s.posts id none }
  | feedback (s : Shelf) (id : String) (fs : List Feedback) (hlive : s.posts id ≠ none) :
    Step author s (.feedback id) (.ok (.feedback fs)) s
  | reply (s : Shelf) (t : Target) (text target : Value) (id : String) (r : PostRef)
    (ht : t.id = .ok target) (hnew : id ∉ s.issued) (hid : r.id = .text id) :
    Step author s (.reply t text) (.ok (.ref r))
      { s with comments := Function.update s.comments id (some ⟨text, target, author⟩),
               issued := s.issued ++ [id] }
  | tooLong (s : Shelf) (k : Call) (c : Content) (f : Failure) (hk : k.content? = some c)
    (hlong : checkLength maxLength c.text = .error f) : Step author s k (.error f) s
  | missing (s : Shelf) (k : Call) (id : String) (hk : k.post? = some id)
    (hmissing : s.posts id = none) (hfits : ∀ c, k.content? = some c → Fits c) :
    Step author s k (fail (.publish (k.missing id))) s
  | mistaken (s : Shelf) (t : Target) (text : Value) (f : Failure) (ht : t.id = .error f) :
    Step author s (.reply t text) (.error f) s

variable {author : Value} {s t : Shelf} {k : Call} {o : Outcome Yield}

/-- A call that fails changes nothing. -/
theorem Step.eq_of_error {f : Failure} (h : Step author s k (.error f) t) : t = s := by
  cases h <;> rfl

/-- A call that is about a post comes to something if and only if the post is there and the new text
is not too long. -/
theorem Step.ok_iff {id : String} (h : Step author s k o t) (hk : k.post? = some id) :
    (∃ y, o = .ok y) ↔ s.posts id ≠ none ∧ ∀ c, k.content? = some c → Fits c := by
  cases h with
  | publish | reply | mistaken => cases hk
  | update _ c _ hfits hlive =>
    cases hk
    exact iff_of_true ⟨_, rfl⟩ ⟨hlive, fun _ hc => Option.some.inj hc ▸ hfits⟩
  | delete _ hlive | feedback _ _ hlive =>
    cases hk
    exact iff_of_true ⟨_, rfl⟩ ⟨hlive, nofun⟩
  | tooLong _ c f hc hlong =>
    refine iff_of_false nofun fun h => ?_
    cases hlong.symm.trans (h.2 c hc)
  | missing _ other hother hmissing =>
    cases hk.symm.trans hother
    exact iff_of_false nofun fun h => h.1 hmissing

end Shelf

/-! ### Calls on the adapter -/

def postName (own : String) (n : Nat) : String := own ++ "-post-" ++ toString n

def replyName (n : Nat) : String := "r-" ++ toString n

/-- Texts are bound, each to what a function gives for it, and nothing else is. -/
structure Binds {α : Type} (es : List (Value × α)) (f : String → Option α) : Prop where
  under : ∀ id, under es id = f id
  keys : ∀ e ∈ es, ∃ id, e.1 = .text id

/-- An adapter with an id in text holds what is on a shelf, and its ids are numbered. -/
structure Holds (own : String) (author : Value) (d : Dummy) (s : Shelf) : Prop where
  id : d.id = .text own
  author : d.author = author
  posts : Binds d.posts s.posts
  comments : Binds d.comments s.comments
  issued : ∀ id ∈ s.issued, ∃ n < d.next, id = postName own n ∨ id = replyName n

variable {own : String} {author : Value} {d : Dummy} {s : Shelf}

theorem postName_eq (own : String) (n : Nat) :
    postName own n = own ++ "-post" ++ "-" ++ toString n := by
  have hmark : own ++ "-post" ++ "-" = own ++ "-post-" := String.append_assoc
  rw [postName, hmark]

theorem postName_inj {a b : String} {m n : Nat} (h : postName a m = postName b n) :
    a = b ∧ m = n := by
  rw [postName_eq, postName_eq] at h
  obtain ⟨hname, hnumber⟩ := numbered_inj h
  exact ⟨(String.append_left_inj _).1 hname, hnumber⟩

theorem replyName_inj {m n : Nat} (h : replyName m = replyName n) : m = n :=
  (numbered_inj (a := "r") (b := "r") h).2

theorem postName_ne_replyName (a : String) (m n : Nat) : postName a m ≠ replyName n := by
  intro h
  rw [postName_eq] at h
  have hname := congrArg String.length (numbered_inj (b := "r") h).1
  have hpost : "-post".length = 5 := by decide
  have hreply : "r".length = 1 := by decide
  rw [String.length_append] at hname
  omega

/-- What must be in order before a post: its text, and an id of the adapter's that can be shown. -/
def admitsPost (d : Dummy) (c : Content) : Outcome Unit := do
  checkLength maxLength c.text
  let _ ← d.id.shown

/-- A post gets the next number, if it can be admitted. -/
theorem outcome_publish_any (d : Dummy) (c : Content) :
    (publish c).outcome d = match d.admitsPost c with
      | .error f => (.error f, d)
      | .ok _ => (.ok { platform := d.id, id := d.postId d.next, url := url (d.postId d.next) },
          { d with posts := Entries.put d.posts (d.postId d.next) ⟨c, false⟩,
                   next := d.next + 1 }) := by
  rw [publish, Act.outcome_ofOutcome_bind, admitsPost]
  cases checkLength maxLength c.text with
  | error f => rfl
  | ok _ =>
    dsimp only
    rw [Act.outcome_bind_ok (Act.outcome_get d), Act.outcome_ofOutcome_bind]
    cases d.id.shown <;> rfl

theorem outcome_publish (h : d.id = .text own) (c : Content) :
    (publish c).outcome d = match checkLength maxLength c.text with
      | .error f => (.error f, d)
      | .ok _ => (.ok { platform := d.id, id := .text (postName own d.next),
                        url := url (.text (postName own d.next)) },
          { d with posts := Entries.put d.posts (.text (postName own d.next)) ⟨c, false⟩,
                   next := d.next + 1 }) := by
  have hshown : d.id.shown = .ok own := by rw [h]; rfl
  have hid : d.postId d.next = .text (postName own d.next) := by rw [postId, h]; rfl
  rw [outcome_publish_any, admitsPost, hshown, hid]
  cases checkLength maxLength c.text <;> rfl

/-- What must be in order before a post is edited: its new text, and that it is there. -/
def admitsEdit (d : Dummy) (postId : Value) (c : Content) : Outcome Unit := do
  checkLength maxLength c.text
  match ← d.post? postId with
  | none => failShowing postId (.publish (.postMissing postId))
  | some _ => pure ()

/-- What must be in order before a post is deleted: that it is there. -/
def admitsDeletion (d : Dummy) (postId : Value) : Outcome Unit := do
  match ← (if d.posts.isEmpty then .ok none else d.post? postId : Outcome (Option Post)) with
  | none => failShowing postId (.publish (.postMissing postId))
  | some _ => pure ()

theorem outcome_update_any (postId : Value) (c : Content) :
    (update postId c).outcome d = match d.admitsEdit postId c with
      | .error f => (.error f, d)
      | .ok _ => (.ok { platform := d.id, id := postId, url := url postId },
          { d with posts := Entries.put d.posts postId ⟨c, true⟩ }) := by
  rw [update, Act.outcome_ofOutcome_bind, admitsEdit]
  cases checkLength maxLength c.text with
  | error f => rfl
  | ok _ =>
    dsimp only
    rw [Act.outcome_bind_ok (Act.outcome_get d), Act.outcome_ofOutcome_bind]
    rcases d.post? postId with f | _ | p
    · rfl
    · obtain ⟨f, hf⟩ := failShowing_error postId (.publish (.postMissing postId))
      simp only [hf]
      rfl
    · rfl

theorem outcome_delete_any (postId : Value) :
    (delete postId).outcome d = match d.admitsDeletion postId with
      | .error f => (.error f, d)
      | .ok _ => (.ok (.bool true), d.erase postId) := by
  rw [delete, Act.outcome_bind_ok (Act.outcome_get d), Act.outcome_ofOutcome_bind, admitsDeletion]
  rcases (if d.posts.isEmpty then .ok none else d.post? postId : Outcome (Option Post)) with
    f | _ | p
  · rfl
  · obtain ⟨f, hf⟩ := failShowing_error postId (.publish (.postMissing postId))
    simp only [hf]
    rfl
  · rfl

theorem outcome_update (id : String) (c : Content) :
    (update (.text id) c).outcome d = match checkLength maxLength c.text with
      | .error f => (.error f, d)
      | .ok _ => match under d.posts id with
        | none => (fail (.publish (.postMissing (.text id))), d)
        | some _ => (.ok { platform := d.id, id := .text id, url := url (.text id) },
            { d with posts := Entries.put d.posts (.text id) ⟨c, true⟩ }) := by
  have hpost : d.post? (.text id) = .ok (under d.posts id) := rfl
  rw [outcome_update_any, admitsEdit, hpost]
  cases checkLength maxLength c.text with
  | error f => rfl
  | ok _ => cases under d.posts id <;> rfl

theorem outcome_delete (id : String) :
    (delete (.text id)).outcome d = match under d.posts id with
      | none => (fail (.publish (.postMissing (.text id))), d)
      | some _ => (.ok (.bool true), d.erase (.text id)) := by
  have hpost : (if d.posts.isEmpty then .ok none else d.post? (.text id)) =
      .ok (under d.posts id) := by
    split
    · rename_i h
      rw [List.isEmpty_iff.1 h]
      rfl
    · rfl
  rw [outcome_delete_any, admitsDeletion, hpost]
  cases under d.posts id <;> rfl

theorem outcome_feedback (id : String) :
    (Call.feedback id).run.outcome d = match under d.posts id with
      | none => (fail (.publish (.feedbackMissing (.text id))), d)
      | some _ => (.ok (.feedback (d.feedbackOn (.text id))), d) := by
  have hpost : d.post? (.text id) = .ok (under d.posts id) := rfl
  rw [Call.run, Act.outcome_bind_ok (Act.outcome_get d), feedback, hpost]
  cases under d.posts id <;> rfl

theorem outcome_reply (t : Target) (text : Value) :
    (reply t text).outcome d = match t.id with
      | .error f => (.error f, { d with next := d.next + 1 })
      | .ok target => (.ok { platform := d.id, id := replyId d.next },
          { d with comments := Entries.put d.comments (replyId d.next) ⟨text, target, d.author⟩,
                   next := d.next + 1 }) := by
  rw [reply, Act.outcome_bind_ok (rfl : takeNumber.outcome d = (.ok d.next, _)),
    Act.outcome_ofOutcome_bind]
  cases t.id <;> rfl

/-- Numbers that were not taken yet name nothing. -/
theorem Holds.fresh (h : Holds own author d s) :
    postName own d.next ∉ s.issued ∧ replyName d.next ∉ s.issued := by
  refine ⟨fun hmem => ?_, fun hmem => ?_⟩ <;> obtain ⟨n, hn, hname | hname⟩ := h.issued _ hmem
  · exact Nat.lt_irrefl n ((postName_inj hname).2 ▸ hn)
  · exact postName_ne_replyName own d.next n hname
  · exact postName_ne_replyName own n d.next hname.symm
  · exact Nat.lt_irrefl n (replyName_inj hname ▸ hn)

theorem Holds.issue (h : Holds own author d s) {id : String}
    (hid : id = postName own d.next ∨ id = replyName d.next) :
    ∀ name ∈ s.issued ++ [id], ∃ n < d.next + 1, name = postName own n ∨ name = replyName n := by
  intro name hname
  rcases List.mem_append.1 hname with hname | hname
  · obtain ⟨n, hn, hform⟩ := h.issued name hname
    exact ⟨n, Nat.lt_succ_of_lt hn, hform⟩
  · exact ⟨d.next, Nat.lt_succ_self _, List.mem_singleton.1 hname ▸ hid⟩

theorem Binds.put {α : Type} {es : List (Value × α)} {f : String → Option α} (h : Binds es f)
    (id : String) (a : α) :
    Binds (Entries.put es (.text id) a) (Function.update f id (some a)) where
  under other := by rw [under_put, Function.update_apply, h.under]
  keys e he := by
    rcases key_of_mem_put he with he | ⟨e', he', hkey⟩
    · exact ⟨id, he⟩
    · exact hkey ▸ h.keys e' he'

theorem Binds.erase {α : Type} {es : List (Value × α)} {f : String → Option α} (h : Binds es f)
    (id : String) :
    Binds (es.filter fun e => !e.1.alike (.text id)) (Function.update f id none) where
  under other := by rw [under_erase, Function.update_apply, h.under]
  keys e he := h.keys e (List.mem_of_mem_filter he)

/-- A call does to the adapter what it does to the shelf. -/
theorem Holds.step (h : Holds own author d s) (k : Call) :
    ∃ s', Shelf.Step author s k (k.run.outcome d).1 s' ∧
      Holds own author (k.run.outcome d).2 s' := by
  cases k with
  | publish c =>
    rw [Call.run, Act.outcome_bind_pure, outcome_publish h.id]
    cases hcheck : checkLength maxLength c.text with
    | error f => exact ⟨s, .tooLong s _ c f rfl hcheck, h⟩
    | ok _ =>
      exact ⟨_, .publish s c _ _ hcheck h.fresh.1 rfl, h.id, h.author, h.posts.put _ _,
        h.comments, h.issue (.inl rfl)⟩
  | update id c =>
    rw [Call.run, Act.outcome_bind_pure, outcome_update]
    cases hcheck : checkLength maxLength c.text with
    | error f => exact ⟨s, .tooLong s _ c f rfl hcheck, h⟩
    | ok _ =>
      dsimp only
      cases hpost : under d.posts id with
      | none =>
        refine ⟨s, .missing s (.update id c) id rfl (h.posts.under id ▸ hpost) ?_, h⟩
        rintro _ ⟨⟩
        exact hcheck
      | some p =>
        have hlive : s.posts id ≠ none := by simp [← h.posts.under id, hpost]
        exact ⟨_, .update s id c _ hcheck hlive rfl, h.id, h.author, h.posts.put _ _,
          h.comments, h.issued⟩
  | delete id =>
    rw [Call.run, Act.outcome_bind_pure, outcome_delete]
    cases hpost : under d.posts id with
    | none => exact ⟨s, .missing s (.delete id) id rfl (h.posts.under id ▸ hpost) nofun, h⟩
    | some p =>
      have hlive : s.posts id ≠ none := by simp [← h.posts.under id, hpost]
      exact ⟨_, .delete s id hlive, h.id, h.author, h.posts.erase id, h.comments, h.issued⟩
  | feedback id =>
    rw [outcome_feedback]
    cases hpost : under d.posts id with
    | none => exact ⟨s, .missing s (.feedback id) id rfl (h.posts.under id ▸ hpost) nofun, h⟩
    | some p =>
      have hlive : s.posts id ≠ none := by simp [← h.posts.under id, hpost]
      exact ⟨s, .feedback s id _ hlive, h⟩
  | reply t text =>
    rw [Call.run, Act.outcome_bind_pure, outcome_reply]
    cases ht : t.id with
    | error f =>
      refine ⟨s, .mistaken s t text f ht, h.id, h.author, h.posts, h.comments, fun id hid => ?_⟩
      obtain ⟨n, hn, hform⟩ := h.issued id hid
      exact ⟨n, Nat.lt_succ_of_lt hn, hform⟩
    | ok target =>
      refine ⟨_, .reply s t text target _ _ ht h.fresh.2 rfl, h.id, h.author, h.posts, ?_,
        h.issue (.inr rfl)⟩
      rw [← h.author]
      exact h.comments.put _ _

/-- A call with an item binds it, or leaves the adapter as it is. -/
theorem bound_of_content (d : Dummy) {k : Call} {c : Content} (hk : k.content? = some c) :
    (∃ f, k.run.outcome d = (.error f, d)) ∨
      ∃ r p, p.content = c ∧ (k.run.outcome d).1 = .ok (.ref r) ∧
        (k.run.outcome d).2.posts = Entries.put d.posts r.id p := by
  cases k with
  | publish c =>
    obtain rfl := Option.some.inj hk
    rw [Call.run, Act.outcome_bind_pure, outcome_publish_any]
    cases d.admitsPost c with
    | error f => exact .inl ⟨f, rfl⟩
    | ok _ => exact .inr ⟨_, ⟨c, false⟩, rfl, rfl, rfl⟩
  | update id c =>
    obtain rfl := Option.some.inj hk
    rw [Call.run, Act.outcome_bind_pure, outcome_update_any]
    cases d.admitsEdit (.text id) c with
    | error f => exact .inl ⟨f, rfl⟩
    | ok _ => exact .inr ⟨_, ⟨c, true⟩, rfl, rfl, rfl⟩
  | _ => cases hk

theorem posts_run_delete (id : String) : (((Call.delete id).run).outcome d).2.posts =
    match (((Call.delete id).run).outcome d).1 with
      | .ok _ => d.posts.filter fun e => !e.1.alike (.text id)
      | .error _ => d.posts := by
  rw [Call.run, Act.outcome_bind_pure, outcome_delete]
  cases under d.posts id <;> rfl

theorem posts_run_feedback (id : String) :
    (((Call.feedback id).run).outcome d).2.posts = d.posts := by
  rw [outcome_feedback]
  cases under d.posts id <;> rfl

theorem posts_run_reply (t : Target) (text : Value) :
    (((Call.reply t text).run).outcome d).2.posts = d.posts := by
  rw [Call.run, Act.outcome_bind_pure, outcome_reply]
  cases t.id <;> rfl

/-! ### Runs -/

/-- What calls came to, in their order. -/
abbrev Trace := List (Call × Outcome Yield)

/-- The id that a call gives out. -/
def issue : Call × Outcome Yield → List Value
  | (.publish _, .ok (.ref r)) | (.reply _ _, .ok (.ref r)) => [r.id]
  | _ => []

/-- The id that a call gives to a post. -/
def posting : Call × Outcome Yield → List Value
  | (.publish _, .ok (.ref r)) => [r.id]
  | _ => []

inductive Shelf.Run (author : Value) : Shelf → Trace → Shelf → Prop
  | nil (s : Shelf) : Run author s [] s
  | cons {s t u : Shelf} {k : Call} {o : Outcome Yield} {trace : Trace}
    (hstep : Step author s k o t) (hrun : Run author t trace u) :
    Run author s ((k, o) :: trace) u

/-- Only new ids are given out. -/
theorem Shelf.Step.issued {s t : Shelf} {k : Call} {o : Outcome Yield}
    (h : Step author s k o t) : t.issued.map .text = s.issued.map .text ++ issue (k, o) ∧
      (s.issued.Nodup → t.issued.Nodup) := by
  have hissue : ∀ {id : String} {r : PostRef}, r.id = .text id → id ∉ s.issued →
      (s.issued ++ [id]).map Value.text = s.issued.map .text ++ [r.id] ∧
        (s.issued.Nodup → (s.issued ++ [id]).Nodup) := by
    intro id r hid hnew
    rw [List.map_append, hid]
    exact ⟨rfl, fun h => List.nodup_append.2 ⟨h, by simp, by rintro _ hx _ hy rfl; simp_all⟩⟩
  have hnone : ∀ (k : Call) (f : Failure),
      s.issued.map Value.text = s.issued.map .text ++ issue (k, .error f) := by
    intro k f
    cases k <;> exact (List.append_nil _).symm
  cases h with
  | publish c id r _ hnew hid => exact hissue hid hnew
  | reply t text target id r _ hnew hid => exact hissue hid hnew
  | tooLong | missing | mistaken => exact ⟨hnone _ _, fun h => h⟩
  | update | delete | feedback => exact ⟨(List.append_nil _).symm, fun h => h⟩

theorem Shelf.Run.issued {s t : Shelf} {trace : Trace} (h : Run author s trace t) :
    t.issued.map .text = s.issued.map .text ++ trace.flatMap issue ∧
      (s.issued.Nodup → t.issued.Nodup) := by
  induction h with
  | nil s => exact ⟨(List.append_nil _).symm, fun h => h⟩
  | cons hstep hrun ih =>
    obtain ⟨hids, hnodup⟩ := hstep.issued
    rw [ih.1, hids, List.flatMap_cons, List.append_assoc]
    exact ⟨rfl, fun h => ih.2 (hnodup h)⟩

theorem Shelf.Run.append {s t u : Shelf} {first rest : Trace} (h : Run author s first t)
    (h' : Run author t rest u) : Run author s (first ++ rest) u := by
  induction h with
  | nil => exact h'
  | cons hstep _ ih => exact .cons hstep (ih h')

theorem posting_name (hid : d.id = .text own) {k : Call} {v : Value}
    (hv : v ∈ posting (k, (k.run.outcome d).1)) : ∃ n, v = .text (postName own n) := by
  cases k with
  | publish c =>
    rw [Call.run, Act.outcome_bind_pure, outcome_publish hid] at hv
    cases hcheck : checkLength maxLength c.text with
    | error f =>
      rw [hcheck] at hv
      cases hv
    | ok _ =>
      rw [hcheck] at hv
      exact ⟨_, List.mem_singleton.1 hv⟩
  | _ => cases hv

end Dummy

end Syndicate

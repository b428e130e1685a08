import Syndicate.Proofs.Adapter.Requests
import Syndicate.Proofs.Adapter.Served

/-! The texts that the adapter in memory holds after any row of calls. Those of its posts are within
its limit, since posts and edits are refused when they are too long. Its comments are the texts of
all replies that came to something, however long these are. -/

namespace Syndicate

/-- The text that a call brings along. -/
def Station.Call.text? : Station.Call → Option Value
  | .publish _ c | .update _ c => some c.text
  | .reply _ text => some text
  | _ => none

def Station.Call.isReply : Station.Call → Bool
  | .reply .. => true
  | _ => false

theorem Station.Call.eq_reply {k : Station.Call} {v : Value} (hv : k.text? = some v)
    (h : k.isReply = true) : ∃ t, k = .reply t v := by
  cases k with
  | reply t text => exact ⟨t, by rw [Option.some.inj hv]⟩
  | _ => cases h

namespace Dummy

/-- What is left of a call as a comment. -/
def Served.comments : Served → List Value
  | ⟨.reply _ text, .ok _⟩ => [text]
  | _ => []

theorem Served.reply_of_mem_comments {a : Served} {v : Value} (h : v ∈ a.comments) :
    ∃ t, a.call = .reply t v := by
  rcases a with ⟨k, _ | y⟩
  · cases k <;> cases h
  · cases k with
    | reply t text => exact ⟨t, by rw [List.mem_singleton.1 h]⟩
    | _ => cases h

/-- After a row of calls no text is held that is too long, and every call that brought one along
was refused for that. -/
structure Measured (d : Dummy) (ks : List Station.Call) : Prop where
  posts : ∀ e ∈ (d.serveAll ks).2.posts, e.2.content.text.FitsIn 280
  comments : ∀ e ∈ (d.serveAll ks).2.comments, e.2.text.FitsIn 280
  refused : ∀ a ∈ (d.serveAll ks).1, ∀ s, a.call.text? = some (.text s) → 280 < s.length →
    a.outcome = fail (.tooLong maxLength (.int s.length))

/-- Comments have numbers that were taken. -/
def Numbered (d : Dummy) : Prop := ∀ e ∈ d.comments, ∃ n < d.next, e.1 = replyId n

variable {d : Dummy} {k : Station.Call} {ks : List Station.Call}

/-! ### Single calls -/

theorem Numbered.put (h : d.Numbered) (c : Comment) :
    Entries.put d.comments (replyId d.next) c = d.comments ++ [(replyId d.next, c)] := by
  refine Entries.put_of_new (fun e he => Bool.eq_false_iff.2 fun hkey => ?_) c
  obtain ⟨n, hn, hname⟩ := h e he
  rw [hname] at hkey
  exact hn.ne (replyId_injective (Entries.alike_text.1 hkey))

variable {run : Nat → Outcome Yield × Dummy}

theorem Effect.numbered (h : Effect d k run) (hd : d.Numbered) : (run d.next).2.Numbered := by
  have hlater : ∀ e ∈ d.comments, ∃ n < d.next + 1, e.1 = replyId n := fun e he =>
    (hd e he).imp fun n hn => ⟨Nat.lt_succ_of_lt hn.1, hn.2⟩
  cases h with
  | refused | verified | listed | updated | deleted => exact hd
  | mistaken | published => exact hlater
  | replied t text target =>
    intro e he
    simp only [hd.put] at he
    rcases List.mem_append.1 he with he | he
    · exact hlater e he
    · exact ⟨d.next, Nat.lt_succ_self _, List.mem_singleton.1 he ▸ rfl⟩

/-- A reply that comes to something is a new comment, and nothing else is. -/
theorem Effect.comments (h : Effect d k run) (hd : d.Numbered) :
    (run d.next).2.comments.map (fun e => e.2.text) =
      d.comments.map (fun e => e.2.text) ++ Served.comments ⟨k, (run d.next).1⟩ := by
  cases h with
  | replied t text target =>
    simp only [hd.put, List.map_append]
    rfl
  | refused => cases k <;> exact (List.append_nil _).symm
  | _ => exact (List.append_nil _).symm

/-- A post is there already, or its content came with a call and fits. -/
theorem Effect.posts (h : Effect d k run) {n : Nat} {e : Value × Post} (he : e ∈ (run n).2.posts) :
    (∃ e' ∈ d.posts, e'.2 = e.2) ∨
      (Fits e.2.content ∧ k.text? = some e.2.content.text) := by
  have hput : ∀ {id : Value} {p : Post}, e ∈ Entries.put d.posts id p → Fits p.content →
      k.text? = some p.content.text → (∃ e' ∈ d.posts, e'.2 = e.2) ∨
        (Fits e.2.content ∧ k.text? = some e.2.content.text) := by
    intro id p he hfits hk
    rcases value_of_mem_put he with hp | hold
    · exact .inr (hp ▸ ⟨hfits, hk⟩)
    · exact .inl hold
  cases h with
  | published clock c hfits => exact hput he hfits rfl
  | updated id c hfits => exact hput he hfits rfl
  | deleted id => exact .inl ⟨e, List.mem_of_mem_filter he, rfl⟩
  | _ => exact .inl ⟨e, he, rfl⟩

theorem checkLength_long {s : String} (hs : 280 < s.length) :
    checkLength maxLength (.text s) = fail (.tooLong maxLength (.int s.length)) := by
  rcases Content.checkLength_cases (c := { text := .text s }) rfl 280 (by decide) with h | h
  · exact h.2
  · exact absurd hs (Nat.not_lt.2 h.1)

theorem fault_of_id {t : Target} {f : Failure} (h : t.id = .error f) :
    ∃ fault, f = .fault fault := by
  unfold Target.id at h
  split at h <;> cases h
  exact ⟨_, rfl⟩

/-- Posts and edits are refused when they are too long; replies are not. -/
theorem serve_long_iff (d : Dummy) {s : String} (hk : k.text? = some (.text s))
    (hs : 280 < s.length) :
    ((serve k).outcome d).1 = fail (.tooLong maxLength (.int s.length)) ↔ k.isReply = false := by
  have hlong := checkLength_long hs
  cases k with
  | publish clock c =>
    rw [← Option.some.inj hk] at hlong
    rw [serve, Act.outcome_bind_pure, outcome_publish_any, admitsPost, hlong]
    exact iff_of_true rfl rfl
  | update id c =>
    rw [← Option.some.inj hk] at hlong
    rw [serve, Act.outcome_bind_pure, outcome_update_any, admitsEdit, hlong]
    exact iff_of_true rfl rfl
  | reply t text =>
    rw [serve, Act.outcome_bind_pure, outcome_reply]
    refine iff_of_false (fun h => ?_) Bool.true_eq_false.mp
    cases ht : t.id with
    | error f =>
      rw [ht] at h
      obtain ⟨fault, rfl⟩ := fault_of_id ht
      cases h
    | ok target =>
      rw [ht] at h
      cases h
  | _ => cases hk

/-! ### Rows of calls -/

theorem calls_serveAll (d : Dummy) (ks : List Station.Call) :
    (d.serveAll ks).1.map Served.call = ks := by
  induction ks generalizing d with
  | nil => rfl
  | cons k ks ih => exact congrArg (k :: ·) (ih ((serve k).outcome d).2)

/-- The comments after a row of calls are those from before and the replies that came to something,
in their order. -/
theorem comments_serveAll (hd : d.Numbered) (ks : List Station.Call) :
    (d.serveAll ks).2.comments.map (fun e => e.2.text) =
      d.comments.map (fun e => e.2.text) ++ (d.serveAll ks).1.flatMap Served.comments := by
  induction ks generalizing d with
  | nil => exact (List.append_nil _).symm
  | cons k ks ih =>
    obtain ⟨run, heffect, hrun⟩ := serve_effect d k
    have hd' : (serve k).outcome d = run d.next := hrun d.next
    rw [serveAll_cons hd', ih (heffect.numbered hd), heffect.comments hd, List.flatMap_cons,
      List.append_assoc]

/-- The posts after a row of calls were there before, or came with one of the calls and fit. -/
theorem posts_serveAll {e : Value × Post} (he : e ∈ (d.serveAll ks).2.posts) :
    (∃ e' ∈ d.posts, e'.2 = e.2) ∨
      (Fits e.2.content ∧ ∃ k ∈ ks, k.text? = some e.2.content.text) := by
  induction ks generalizing d with
  | nil => exact .inl ⟨e, he, rfl⟩
  | cons k ks ih =>
    obtain ⟨run, heffect, hrun⟩ := serve_effect d k
    have hd' : (serve k).outcome d = run d.next := hrun d.next
    rw [serveAll_cons hd'] at he
    obtain ⟨e₁, he₁, hpost⟩ | ⟨hfits, k', hk', htext⟩ := ih he
    · rcases heffect.posts he₁ with ⟨e₂, he₂, hpost₂⟩ | ⟨hfits, htext⟩
      · exact .inl ⟨e₂, he₂, hpost₂.trans hpost⟩
      · exact .inr ⟨hpost ▸ hfits, k, List.mem_cons_self, hpost ▸ htext⟩
    · exact .inr ⟨hfits, k', List.mem_cons_of_mem k hk', htext⟩

theorem exists_serve_of_mem {a : Served} (ha : a ∈ (d.serveAll ks).1) :
    ∃ e : Dummy, ((serve a.call).outcome e).1 = a.outcome := by
  induction ks generalizing d with
  | nil => cases ha
  | cons k ks ih =>
    rcases List.mem_cons.1 ha with rfl | ha
    · exact ⟨d, rfl⟩
    · exact ih ha

theorem refused_iff {a : Served} (ha : a ∈ (d.serveAll ks).1) {s : String}
    (hs : a.call.text? = some (.text s)) (hlong : 280 < s.length) :
    a.outcome = fail (.tooLong maxLength (.int s.length)) ↔ a.call.isReply = false := by
  obtain ⟨e, he⟩ := exists_serve_of_mem ha
  rw [← he]
  exact serve_long_iff e hs hlong

/-- Where all that is too long is refused, no reply is too long. -/
theorem Measured.replies (h : Measured d ks)
    (htext : ∀ k ∈ ks, ∀ v, k.text? = some v → v.isTextual = true) {t : Target} {text : Value}
    (hk : .reply t text ∈ ks) : text.FitsIn 280 := by
  cases text with
  | null => exact .inl rfl
  | text s =>
    obtain ⟨a, ha, hcall⟩ := List.mem_map.1 ((calls_serveAll d ks).symm ▸ hk)
    have hs : a.call.text? = some (.text s) := hcall ▸ rfl
    refine .inr ⟨s, rfl, Nat.not_lt.1 fun hlong => ?_⟩
    have hreply := (refused_iff ha hs hlong).1 (h.refused a ha s hs hlong)
    rw [hcall] at hreply
    cases hreply
  | _ => cases htext _ hk _ rfl

theorem measured_of_replies (hposts : ∀ e ∈ (d.serveAll ks).2.posts, e.2.content.text.FitsIn 280)
    (hcomments : (d.serveAll ks).2.comments.map (fun e => e.2.text) =
      (d.serveAll ks).1.flatMap Served.comments)
    (h : ∀ t text, .reply t text ∈ ks → text.FitsIn 280) : Measured d ks := by
  have hcall : ∀ {a : Served}, a ∈ (d.serveAll ks).1 → a.call ∈ ks := fun ha =>
    calls_serveAll d ks ▸ List.mem_map_of_mem ha
  refine ⟨hposts, fun e he => ?_, fun a ha s hs hlong => (refused_iff ha hs hlong).2 ?_⟩
  · have hmem := List.mem_map_of_mem (f := fun e => e.2.text) he
    rw [hcomments] at hmem
    obtain ⟨a, ha, hleft⟩ := List.mem_flatMap.1 hmem
    obtain ⟨t, hreply⟩ := Served.reply_of_mem_comments hleft
    exact h t _ (hreply ▸ hcall ha)
  · refine Bool.eq_false_iff.2 fun hreply => ?_
    obtain ⟨t, ht⟩ := Station.Call.eq_reply hs hreply
    rcases h t (.text s) (ht ▸ hcall ha) with hnull | ⟨_, ⟨⟩, hfits⟩
    · cases hnull
    · exact Nat.not_lt.2 hfits hlong

/-- No post of a new adapter ever has a text that is too long; its comments are the replies that
came to something; and a text that is too long is refused, unless it comes with a reply. So nothing
too long is held and all of it is refused if and only if no reply is too long. -/
theorem measured_iff (config : AdapterConfig) (reject : Bool) {ks : List Station.Call}
    (htext : ∀ k ∈ ks, ∀ v, k.text? = some v → v.isTextual = true) :
    let new : Dummy := { config := config, rejectVerify := reject }
    (∀ e ∈ (new.serveAll ks).2.posts, e.2.content.text.FitsIn 280) ∧
      (new.serveAll ks).2.comments.map (fun e => e.2.text) =
        (new.serveAll ks).1.flatMap Served.comments ∧
      (∀ a ∈ (new.serveAll ks).1, ∀ s, a.call.text? = some (.text s) → 280 < s.length →
        (a.outcome = fail (.tooLong maxLength (.int s.length)) ↔ a.call.isReply = false)) ∧
      (Measured new ks ↔ ∀ t text, .reply t text ∈ ks → text.FitsIn 280) := by
  intro new
  have hposts : ∀ e ∈ (new.serveAll ks).2.posts, e.2.content.text.FitsIn 280 := by
    intro e he
    rcases posts_serveAll he with ⟨e', he', -⟩ | ⟨hfits, k, hk, hcontent⟩
    · cases he'
    · exact Value.FitsIn.of_checkLength (htext k hk _ hcontent) 280 (by decide) hfits
  have hcomments : (new.serveAll ks).2.comments.map (fun e => e.2.text) =
      (new.serveAll ks).1.flatMap Served.comments :=
    comments_serveAll (d := new) (fun e he => nomatch he) ks
  exact ⟨hposts, hcomments, fun a ha s hs hlong => refused_iff ha hs hlong,
    fun h t text hk => h.replies htext hk, measured_of_replies hposts hcomments⟩

/-- A text that is too long by one character. -/
def wordy : String := String.ofList (List.replicate 281 'a')

theorem length_wordy : wordy.length = 281 :=
  String.length_ofList.trans List.length_replicate

/-- A post, a reply to it, and an edit that is too long. -/
def notes : List Station.Call :=
  [.publish 0 { text := .text "Hi" }, .reply (.other (.text "d-post-1")) (.text "Ho"),
   .update (.text "d-post-1") { text := .text wordy }]

theorem measured_notes : (∀ k ∈ notes, ∀ v, k.text? = some v → v.isTextual = true) ∧
    Measured { config := { id := .text "d" } } notes := by
  have htext : ∀ k ∈ notes, ∀ v, k.text? = some v → v.isTextual = true := by
    simp only [notes, List.forall_mem_cons]
    refine ⟨?_, ?_, ?_, fun _ h => absurd h List.not_mem_nil⟩ <;> rintro v ⟨⟩ <;> rfl
  obtain ⟨-, -, -, hiff⟩ := measured_iff { id := .text "d" } false htext
  refine ⟨htext, hiff.2 fun t text ht => ?_⟩
  obtain ⟨-, rfl⟩ : t = .other (.text "d-post-1") ∧ text = .text "Ho" := by simpa [notes] using ht
  exact .inr ⟨"Ho", rfl, by decide⟩

/-- A reply is held, however long it is. -/
theorem not_measured_reply : ¬ Measured { config := { id := .text "d" } }
    [.reply (.other (.text "x")) (.text wordy)] := by
  intro h
  obtain hnull | ⟨s, hs, hfits⟩ := h.comments _ List.mem_cons_self
  · cases hnull
  · rw [← Value.text.inj hs, length_wordy] at hfits
    omega

end Dummy

end Syndicate

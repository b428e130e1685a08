import Syndicate.Proofs.Adapter.Dummy
import Syndicate.Proofs.Adapter.Requests

/-! Rows of calls to the adapter in memory, and what is left of a row when the calls that failed are
taken out of it. Nothing else is different then, unless a reply to what has no id stands before a
post or a reply that is given one: such a reply fails, but not before it has taken a number. -/

namespace Syndicate

namespace Dummy

/-! ### Calls -/

/-- What the adapter in memory does on a call. A post does not depend on the clock. -/
def serve : Station.Call → Act Dummy Yield
  | .verify => do
    let d ← get
    pure (.answer (← Act.ofOutcome d.verify))
  | .publish _ c => do pure (.ref (← publish c))
  | .update id c => do pure (.ref (← update id c))
  | .delete id => do pure (.answer (← delete id))
  | .feedback id => do
    let d ← get
    pure (.feedback (← Act.ofOutcome (d.feedback id)))
  | .reply target text => do pure (.ref (← reply target text))

section Places

variable {α : Type} {d : Dummy} {u v : Site} {x : Act Station α} {z : Act Dummy α}

theorem served_of_outcome
    (h : x.outcome ⟨.dummy d, u⟩ = ((z.outcome d).1, ⟨.dummy (z.outcome d).2, v⟩))
    (y : α → Yield) :
    (do let _ ← x : Act Station Unit).outcome ⟨.dummy d, u⟩ =
      (((do pure (y (← z)) : Act Dummy Yield).outcome d).1.map fun _ => (),
        ⟨.dummy ((do pure (y (← z)) : Act Dummy Yield).outcome d).2, v⟩) := by
  rw [Act.outcome_bind_pure, Act.outcome_bind_pure, h]
  cases (z.outcome d).1 <;> rfl

theorem outcome_ofOutcome_at (o : Outcome α) (d : Dummy) (u : Site) :
    (Act.ofOutcome o : Act Station α).outcome ⟨.dummy d, u⟩ =
      (((Act.ofOutcome o : Act Dummy α).outcome d).1,
        ⟨.dummy ((Act.ofOutcome o : Act Dummy α).outcome d).2, u⟩) := by
  rw [Act.outcome_ofOutcome, Act.outcome_ofOutcome]

/-- A post is told to the log besides. -/
theorem outcome_publish_at (clock : Nat) (c : Content) (d : Dummy) (u : Site) :
    ∃ v, (Station.publish clock c).outcome ⟨.dummy d, u⟩ =
      (((publish c).outcome d).1, ⟨.dummy ((publish c).outcome d).2, v⟩) := by
  rcases h : (publish c).outcome d with ⟨o, e⟩
  have hput : (Station.onDummy d (publish c)).outcome ⟨.dummy d, u⟩ = (o, ⟨.dummy e, u⟩) := by
    rw [Station.outcome_onDummy, h]
  rw [Station.publish, Act.outcome_bind_ok (Act.outcome_get _)]
  cases o with
  | error f => exact ⟨u, Act.outcome_bind_error hput⟩
  | ok ref => exact ⟨_, Act.outcome_bind_ok hput⟩

/-- Made at a place of the adapter, a call is served by it. -/
theorem perform_eq_serve (k : Station.Call) (d : Dummy) (u : Site) :
    ∃ v, k.perform.outcome ⟨.dummy d, u⟩ =
      (((serve k).outcome d).1.map fun _ => (), ⟨.dummy ((serve k).outcome d).2, v⟩) := by
  cases k with
  | verify => exact ⟨u, served_of_outcome (outcome_ofOutcome_at d.verify d u) .answer⟩
  | publish clock c =>
    exact (outcome_publish_at clock c d u).imp fun _ h => served_of_outcome h .ref
  | update id c => exact ⟨u, served_of_outcome (Station.outcome_onDummy d _) .ref⟩
  | delete id => exact ⟨u, served_of_outcome (Station.outcome_onDummy d _) .answer⟩
  | feedback id => exact ⟨u, served_of_outcome (outcome_ofOutcome_at (d.feedback id) d u) .feedback⟩
  | reply t text => exact ⟨u, served_of_outcome (Station.outcome_onDummy d _) .ref⟩

end Places

/-- The adapter with another number to come. -/
def counting (d : Dummy) (n : Nat) : Dummy := { d with next := n }

@[simp] theorem next_counting (d : Dummy) (n : Nat) : (d.counting n).next = n := rfl

@[simp] theorem counting_next (d : Dummy) : d.counting d.next = d := rfl

@[simp] theorem counting_counting (d : Dummy) (m n : Nat) :
    (d.counting m).counting n = d.counting n := rfl

/-- What a call does to an adapter, whatever number comes next. -/
inductive Effect (d : Dummy) : Station.Call → (Nat → Outcome Yield × Dummy) → Prop
  | refused (k : Station.Call) (f : Failure) (hk : ∀ t text, k ≠ .reply t text) :
    Effect d k fun n => (.error f, d.counting n)
  | mistaken (t : Target) (text : Value) (f : Failure) (ht : t.id = .error f) :
    Effect d (.reply t text) fun n => (.error f, d.counting (n + 1))
  | verified (v : Value) : Effect d .verify fun n => (.ok (.answer v), d.counting n)
  | listed (id : Value) (fs : List Feedback) :
    Effect d (.feedback id) fun n => (.ok (.feedback fs), d.counting n)
  | published (clock : Nat) (c : Content) (hfits : Fits c) :
    Effect d (.publish clock c) fun n =>
      (.ok (.ref { platform := d.id, id := d.postId n, url := url (d.postId n) }),
        { d with posts := Entries.put d.posts (d.postId n) ⟨c, false⟩, next := n + 1 })
  | updated (id : Value) (c : Content) (hfits : Fits c) :
    Effect d (.update id c) fun n =>
      (.ok (.ref { platform := d.id, id := id, url := url id }),
        { d with posts := Entries.put d.posts id ⟨c, true⟩, next := n })
  | deleted (id : Value) :
    Effect d (.delete id) fun n => (.ok (.answer (.bool true)), (d.erase id).counting n)
  | replied (t : Target) (text target : Value) (ht : t.id = .ok target) :
    Effect d (.reply t text) fun n => (.ok (.ref { platform := d.id, id := replyId n }),
      { d with comments := Entries.put d.comments (replyId n) ⟨text, target, d.author⟩,
               next := n + 1 })

variable {d e : Dummy} {k : Station.Call} {ks : List Station.Call}

/-- A call that comes to nothing but a failure when it is not in order. -/
theorem Effect.of_checked {α : Type} (check : Outcome α) {done : α → Nat → Outcome Yield × Dummy}
    (hk : ∀ t text, k ≠ .reply t text)
    (h : ∀ n, (serve k).outcome (d.counting n) = match check with
      | .error f => (.error f, d.counting n)
      | .ok a => done a n)
    (hdone : ∀ a, check = .ok a → Effect d k (done a)) :
    ∃ run, Effect d k run ∧ ∀ n, (serve k).outcome (d.counting n) = run n := by
  cases check with
  | error f => exact ⟨_, .refused k f hk, h⟩
  | ok a => exact ⟨_, hdone a rfl, h⟩

theorem fits_of_bind {c : Content} {f : Unit → Outcome Unit} {u : Unit}
    (h : checkLength maxLength c.text >>= f = .ok u) : Fits c := by
  obtain ⟨_, hfits, -⟩ := ok_of_bind h
  exact hfits

/-- Every call has an effect, which it has on an adapter with any number to come. -/
theorem serve_effect (d : Dummy) (k : Station.Call) :
    ∃ run, Effect d k run ∧ ∀ n, (serve k).outcome (d.counting n) = run n := by
  cases k with
  | verify =>
    refine Effect.of_checked (d.verify) nofun (fun n => ?_) fun v _ => .verified v
    rw [serve, Act.outcome_bind_ok (Act.outcome_get _)]
    show Act.outcome (Act.ofOutcome d.verify >>= _) _ = _
    rw [Act.outcome_ofOutcome_bind]
    cases d.verify <;> rfl
  | publish clock c =>
    refine Effect.of_checked (d.admitsPost c) nofun (fun n => ?_) fun _ h =>
      .published clock c (fits_of_bind h)
    rw [serve, Act.outcome_bind_pure, outcome_publish_any]
    have hcheck : (d.counting n).admitsPost c = d.admitsPost c := rfl
    rw [hcheck]
    cases d.admitsPost c <;> rfl
  | update id c =>
    refine Effect.of_checked (d.admitsEdit id c) nofun (fun n => ?_) fun _ h =>
      .updated id c (fits_of_bind h)
    rw [serve, Act.outcome_bind_pure, outcome_update_any]
    have hcheck : (d.counting n).admitsEdit id c = d.admitsEdit id c := rfl
    rw [hcheck]
    cases d.admitsEdit id c <;> rfl
  | delete id =>
    refine Effect.of_checked (d.admitsDeletion id) nofun (fun n => ?_) fun _ _ => .deleted id
    rw [serve, Act.outcome_bind_pure, outcome_delete_any]
    have hcheck : (d.counting n).admitsDeletion id = d.admitsDeletion id := rfl
    rw [hcheck]
    cases d.admitsDeletion id <;> rfl
  | feedback id =>
    refine Effect.of_checked (d.feedback id) nofun (fun n => ?_) fun fs _ => .listed id fs
    rw [serve, Act.outcome_bind_ok (Act.outcome_get _)]
    show Act.outcome (Act.ofOutcome (d.feedback id) >>= _) _ = _
    rw [Act.outcome_ofOutcome_bind]
    cases d.feedback id <;> rfl
  | reply t text =>
    cases ht : t.id with
    | error f =>
      refine ⟨_, .mistaken t text f ht, fun n => ?_⟩
      rw [serve, Act.outcome_bind_pure, outcome_reply, ht]
      rfl
    | ok target =>
      refine ⟨_, .replied t text target ht, fun n => ?_⟩
      rw [serve, Act.outcome_bind_pure, outcome_reply, ht]
      rfl

/-! ### Numbers -/

/-- Whether a call takes a number for nothing. Replies to what has no id do. -/
def wastes : Station.Call → Bool
  | .reply t _ => !t.id.toBool
  | _ => false

/-- A call and what came of it. -/
structure Served where
  call : Station.Call
  outcome : Outcome Yield

namespace Served

/-- Whether a call came to something. -/
def lasts (a : Served) : Bool := a.outcome.toBool

/-- Whether a call gave out a new id. -/
def issues (a : Served) : Bool :=
  match a.call with
  | .publish .. | .reply .. => a.lasts
  | _ => false

end Served

/-- What becomes of the next number on a call. -/
inductive Takes (d : Dummy) (k : Station.Call) (run : Nat → Outcome Yield × Dummy) : Prop
  | failed (f : Failure)
    (hrun : ∀ n, run n = (.error f, d.counting (if wastes k then n + 1 else n)))
  | kept (y : Yield) (e : Dummy) (hrun : ∀ n, run n = (.ok y, e.counting n))
    (hkept : wastes k = false ∧ Served.issues ⟨k, .ok y⟩ = false)
  | issued (r : Nat → PostRef) (e : Nat → Dummy)
    (hrun : ∀ n, run n = (.ok (.ref (r n)), (e n).counting (n + 1))) (hnew : r.Injective)
    (hissued : wastes k = false ∧ ∀ n, Served.issues ⟨k, .ok (.ref (r n))⟩ = true)

theorem postId_injective (d : Dummy) : d.postId.Injective := fun _ _ h =>
  (postName_inj (Value.text.inj h)).2

theorem replyId_injective : replyId.Injective := fun _ _ h => replyName_inj (Value.text.inj h)

theorem Effect.takes {run : Nat → Outcome Yield × Dummy} (h : Effect d k run) :
    Takes d k run := by
  cases h with
  | refused _ f hk =>
    have hwastes : wastes k = false := by
      cases k with
      | reply t text => exact absurd rfl (hk t text)
      | _ => rfl
    exact .failed f fun n => by rw [hwastes]; rfl
  | mistaken t text f ht =>
    have hwastes : wastes (.reply t text) = true := by rw [wastes, ht]; rfl
    exact .failed f fun n => by rw [hwastes]; rfl
  | verified v => exact .kept _ d (fun _ => rfl) ⟨rfl, rfl⟩
  | listed id fs => exact .kept _ d (fun _ => rfl) ⟨rfl, rfl⟩
  | updated id c =>
    exact .kept _ { d with posts := Entries.put d.posts id ⟨c, true⟩ } (fun _ => rfl) ⟨rfl, rfl⟩
  | deleted id => exact .kept _ (d.erase id) (fun _ => rfl) ⟨rfl, rfl⟩
  | published clock c =>
    exact .issued (fun n => { platform := d.id, id := d.postId n, url := url (d.postId n) })
      (fun n => { d with posts := Entries.put d.posts (d.postId n) ⟨c, false⟩ }) (fun _ => rfl)
      (fun _ _ h => postId_injective d (congrArg PostRef.id h)) ⟨rfl, fun _ => rfl⟩
  | replied t text target ht =>
    have hwastes : wastes (.reply t text) = false := by rw [wastes, ht]; rfl
    exact .issued (fun n => { platform := d.id, id := replyId n })
      (fun n => { d with comments := Entries.put d.comments (replyId n) ⟨text, target, d.author⟩ })
      (fun _ => rfl) (fun _ _ h => replyId_injective (congrArg PostRef.id h))
      ⟨hwastes, fun _ => rfl⟩

/-- What a call does with the next number, whatever number that is. -/
theorem serve_takes (d : Dummy) (k : Station.Call) :
    Takes d k fun n => (serve k).outcome (d.counting n) := by
  obtain ⟨run, heffect, hrun⟩ := serve_effect d k
  rw [funext hrun]
  exact heffect.takes

/-! ### Rows of calls -/

/-- Makes calls one after the other, whether they fail or not. -/
def serveAll (d : Dummy) : List Station.Call → List Served × Dummy
  | [] => ([], d)
  | k :: ks =>
    let (o, e) := (serve k).outcome d
    let (rest, e) := e.serveAll ks
    (⟨k, o⟩ :: rest, e)

/-- The calls of a row that come to something. -/
def lasting (d : Dummy) (ks : List Station.Call) : List Station.Call :=
  ((d.serveAll ks).1.filter Served.lasts).map Served.call

/-- The calls of a row that come to something on one adapter come to the same on another one, when
they are all that is made there, and leave the same posts and comments. -/
structure Retraces (d e : Dummy) (ks : List Station.Call) : Prop where
  answers : (e.serveAll (d.lasting ks)).1 = (d.serveAll ks).1.filter Served.lasts
  posts : (e.serveAll (d.lasting ks)).2.posts = (d.serveAll ks).2.posts
  comments : (e.serveAll (d.lasting ks)).2.comments = (d.serveAll ks).2.comments

theorem serveAll_cons {o : Outcome Yield} (h : (serve k).outcome d = (o, e)) :
    d.serveAll (k :: ks) = (⟨k, o⟩ :: (e.serveAll ks).1, (e.serveAll ks).2) := by
  rw [serveAll, h]

theorem lasting_cons_ok {y : Yield} (h : (serve k).outcome d = (.ok y, e)) :
    d.lasting (k :: ks) = k :: e.lasting ks := by
  rw [lasting, serveAll_cons h]
  rfl

theorem lasting_cons_error {f : Failure} (h : (serve k).outcome d = (.error f, e)) :
    d.lasting (k :: ks) = e.lasting ks := by
  rw [lasting, serveAll_cons h]
  rfl

/-- A call that fails is not made on the other adapter. -/
theorem retraces_cons_error {d' : Dummy} {f : Failure} (h : (serve k).outcome d = (.error f, d')) :
    Retraces d e (k :: ks) ↔ Retraces d' e ks := by
  have hfilter : (d.serveAll (k :: ks)).1.filter Served.lasts =
      (d'.serveAll ks).1.filter Served.lasts := by rw [serveAll_cons h]; rfl
  have hend : (d.serveAll (k :: ks)).2 = (d'.serveAll ks).2 := by rw [serveAll_cons h]
  constructor
  · rintro ⟨hanswers, hposts, hcomments⟩
    rw [lasting_cons_error h] at hanswers hposts hcomments
    exact ⟨hanswers.trans hfilter, hend ▸ hposts, hend ▸ hcomments⟩
  · rintro ⟨hanswers, hposts, hcomments⟩
    constructor <;> rw [lasting_cons_error h]
    · exact hanswers.trans hfilter.symm
    · rw [hend, hposts]
    · rw [hend, hcomments]

/-- A call that comes to something must come to the same on the other adapter. -/
theorem retraces_cons_ok {d' e' : Dummy} {y : Yield} {o : Outcome Yield}
    (h : (serve k).outcome d = (.ok y, d')) (h' : (serve k).outcome e = (o, e')) :
    Retraces d e (k :: ks) ↔ o = .ok y ∧ Retraces d' e' ks := by
  have hfilter : (d.serveAll (k :: ks)).1.filter Served.lasts =
      ⟨k, .ok y⟩ :: (d'.serveAll ks).1.filter Served.lasts := by rw [serveAll_cons h]; rfl
  have hend : (d.serveAll (k :: ks)).2 = (d'.serveAll ks).2 := by rw [serveAll_cons h]
  constructor
  · rintro ⟨hanswers, hposts, hcomments⟩
    rw [lasting_cons_ok h, serveAll_cons h'] at hanswers hposts hcomments
    obtain ⟨hhead, htail⟩ := List.cons.inj (hanswers.trans hfilter)
    exact ⟨congrArg Served.outcome hhead, htail, hend ▸ hposts, hend ▸ hcomments⟩
  · rintro ⟨rfl, hanswers, hposts, hcomments⟩
    constructor <;> rw [lasting_cons_ok h, serveAll_cons h']
    · rw [hfilter, hanswers]
    · rw [hend]
      exact hposts
    · rw [hend]
      exact hcomments

/-- Calls retrace a row from an earlier number as well, unless the row gives out an id. From the
number itself they do unless a number is wasted before an id is given out. -/
theorem retraces_iff {n : Nat} (hn : n ≤ d.next) (ks : List Station.Call) :
    Retraces d (d.counting n) ks ↔
      (d.serveAll ks).1.Pairwise (fun a b => wastes a.call = true → b.issues = false) ∧
        (n < d.next → ∀ a ∈ (d.serveAll ks).1, a.issues = false) := by
  induction ks generalizing d n with
  | nil => exact iff_of_true ⟨rfl, rfl, rfl⟩ ⟨.nil, fun _ _ h => absurd h List.not_mem_nil⟩
  | cons k ks ih =>
    cases serve_takes d k with
    | failed f hrun =>
      have hd : (serve k).outcome d = _ := hrun d.next
      have hissues : Served.issues ⟨k, .error f⟩ = false := by cases k <;> rfl
      rw [retraces_cons_error hd, serveAll_cons hd, List.pairwise_cons, List.forall_mem_cons,
        hissues]
      cases hwastes : wastes k with
      | false =>
        have hrest : Retraces d (d.counting n) ks ↔ _ := ih hn
        simpa using hrest
      | true =>
        -- The other adapter is behind from now on, so nothing that follows may give out an id.
        have hbehind : n < (d.counting (d.next + 1)).next := Nat.lt_succ_of_le hn
        have hrest : Retraces (d.counting (d.next + 1)) (d.counting n) ks ↔ _ := ih hbehind.le
        simp only [hbehind, true_implies] at hrest
        simp [hrest]
        tauto
    | kept y e hrun hkept =>
      have hd : (serve k).outcome d = _ := hrun d.next
      obtain ⟨hwastes, hissues⟩ := hkept
      have hrest : Retraces (e.counting d.next) (e.counting n) ks ↔ _ := ih hn
      rw [retraces_cons_ok hd (hrun n), serveAll_cons hd, List.pairwise_cons, List.forall_mem_cons,
        hwastes, hissues]
      simpa using hrest
    | issued r e hrun hnew hissued =>
      have hd : (serve k).outcome d = _ := hrun d.next
      obtain ⟨hwastes, hissues⟩ := hissued
      rw [retraces_cons_ok hd (hrun n), serveAll_cons hd, List.pairwise_cons, List.forall_mem_cons,
        hwastes, hissues]
      obtain rfl | hbehind := hn.eq_or_lt
      · have hrest : Retraces ((e d.next).counting (d.next + 1)) _ ks ↔ _ :=
          ih (Nat.le_refl (d.next + 1))
        simpa using hrest
      · have hother : r n ≠ r d.next := hnew.ne hbehind.ne
        simp [hother, hbehind]

/-- Failed calls leave no trace, if and only if no id is given out after a number was wasted: the
calls that came to something come to the very same without them, and leave the same behind. -/
theorem failures_traceless_iff (d : Dummy) (ks : List Station.Call) :
    Retraces d d ks ↔
      (d.serveAll ks).1.Pairwise fun a b => wastes a.call = true → b.issues = false := by
  simpa using retraces_iff (Nat.le_refl d.next) ks

/-- A reply to a number fails, and the next post skips an id. -/
theorem not_retraces_misdirected :
    ¬ Retraces { config := { id := .text "d" } } { config := { id := .text "d" } }
      [.reply (.other (.int 5)) (.text "x"), .publish 0 { text := .text "hi" }] := by
  intro h
  have hkeys : [Value.text "d-post-1"] = [.text "d-post-2"] := congrArg (·.map Prod.fst) h.posts
  simp at hkeys

end Dummy

end Syndicate

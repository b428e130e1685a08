import Syndicate.Proofs.Adapter.Dummy
import Syndicate.Proofs.Content.Shuffled
import Syndicate.Proofs.Dispatch.Abreast
import Syndicate.Proofs.Dispatch.Renewed
import Syndicate.Proofs.Routing

/-! Items whose options come in another order, from the rules to the requests. Rules do not look at
options and adapters look them up, so the same tasks are found for both, and the same is sent, told
and answered. -/

namespace Syndicate

open Act (Agree Matches Mirrors)

variable {c d : Content}

/-! ### Tasks -/

/-- The same is reported, and something related comes of both or both fail for the same reason. -/
structure Traced.Rel {α β : Type} (R : α → β → Prop) (x : Traced α) (y : Traced β) : Prop where
  events : y.events = x.events
  outcome : Outcome.Rel R x.outcome y.outcome

/-- A check does not look at the order of options. -/
def Validator.IgnoresOrder (validator : Validator) : Prop :=
  ∀ c d : Content, c.Shuffled d → validator d = validator c

theorem Validator.body_ignoresOrder : Validator.body.IgnoresOrder := by
  intro c d h
  unfold Validator.body
  rw [h.body]

/-- Two tasks are equal: they are the same but for the order of the options of their items. -/
structure Task.Shuffled (t t' : Task) : Prop where
  adapter : t'.adapter = t.adapter
  content : t.content.Shuffled t'.content
  delay : t'.delay = t.delay
  rule : t'.rule = t.rule
  channel : t'.channel = t.channel

theorem Task.Shuffled.refl (t : Task) : t.Shuffled t := ⟨rfl, .refl _, rfl, rfl, rfl⟩

namespace Routing

variable {known : String → Bool} {now : Instant}

theorem task_shuffled (h : c.Shuffled d) (a : Assignment) :
    Task.Shuffled (a.task c) (a.task d) := by
  refine ⟨rfl, ?_, rfl, rfl, rfl⟩
  show (a.contentOf c).Shuffled (a.contentOf d)
  unfold Assignment.contentOf
  split
  · exact h.setOption "channel" a.channel
  · exact h

/-- Conditions do not look at options. -/
theorem accept_shuffled (h : c.Shuffled d) (k : Conditions) :
    k.accept (.item d) = k.accept (.item c) := by
  have hmeet : k.meet d = k.meet c := by
    unfold Conditions.meet
    rw [h.body, h.tags]
  unfold Conditions.accept Source.content
  split
  · rfl
  · exact hmeet

theorem assignRules_shuffled (h : c.Shuffled d) (es : List RuleEntry) :
    assignRules known now d es = assignRules known now c es := by
  induction es with
  | nil => rfl
  | cons e es ih =>
    have hrule : assignRule known now d e = assignRule known now c e := by
      unfold assignRule
      simp only [accept_shuffled h]
    rw [assignRules, assignRules, hrule, ih]

/-- The same tasks are found for both items. -/
theorem tasks_shuffled {validator : Validator} (hv : validator.IgnoresOrder) (s s' : Source)
    (h : Outcome.Rel Content.Shuffled s.content s'.content) (rules : Outcome (List RuleEntry)) :
    Traced.Rel (List.Forall₂ Task.Shuffled) (tasks known now validator s rules)
      (tasks known now validator s' rules) := by
  have haccepted : Outcome.Rel Content.Shuffled (accepted validator s) (accepted validator s') := by
    refine h.bind fun c d hcd => ?_
    rw [hv c d hcd]
    refine .after _ fun verdict => ?_
    split
    · exact .ok hcd
    · exact .error _
  cases hc : accepted validator s with
  | error f =>
    rw [hc] at haccepted
    rw [tasks_refused hc, tasks_refused haccepted.of_error]
    exact ⟨rfl, .error f⟩
  | ok c =>
    rw [hc] at haccepted
    obtain ⟨d, hd, hcd⟩ := haccepted.of_ok
    rw [tasks_accepted hc, tasks_accepted hd]
    cases rules with
    | error f => exact ⟨rfl, .error f⟩
    | ok es =>
      dsimp only
      rw [tasked_eq, tasked_eq, assignRules_shuffled hcd]
      refine ⟨rfl, ?_⟩
      cases (assignRules known now c es).outcome with
      | error f => exact .error f
      | ok as =>
        refine .ok (List.forall₂_map_left_iff.2 (List.forall₂_map_right_iff.2 ?_))
        exact List.forall₂_same.2 fun a _ => task_shuffled hcd a

end Routing

/-! ### Adapters -/

structure Post.Shuffled (p q : Post) : Prop where
  content : p.content.Shuffled q.content
  updated : q.updated = p.updated

/-- Two adapters are the same but for the options of the items that they keep. -/
inductive Adapter.Shuffled : Adapter → Adapter → Prop
  | dummy {x : Dummy} {posts : List (Value × Post)}
    (h : List.Forall₂ (Beside Post.Shuffled) x.posts posts) :
    Shuffled (.dummy x) (.dummy { x with posts := posts })
  | telegram (g : Telegram) : Shuffled (.telegram g) (.telegram g)
  | bare (b : Bare) : Shuffled (.bare b) (.bare b)
  | recorder (r : Recorder) : Shuffled (.recorder r) (.recorder r)

namespace Adapter.Shuffled

variable {a b : Adapter}

theorem refl (a : Adapter) : Shuffled a a := by
  cases a with
  | dummy x => exact .dummy (List.forall₂_same.2 fun _ _ => ⟨rfl, .refl _, rfl⟩)
  | telegram g => exact .telegram g
  | bare b => exact .bare b
  | recorder r => exact .recorder r

theorem id (h : Shuffled a b) : b.id = a.id := by
  cases h <;> rfl

theorem rest? (h : Shuffled a b) : b.rest? = a.rest? := by
  cases h <;> rfl

theorem enter (h : Shuffled a b) : Shuffled a.enter b.enter := by
  cases h with
  | dummy h => exact .dummy h
  | telegram g => exact .telegram g
  | bare b => exact .bare b
  | recorder r => exact .recorder r.enter

end Adapter.Shuffled

/-- A post to a channel is made of what is under the names of options. -/
theorem Telegram.publish_shuffled (g : Telegram) (h : c.Shuffled d) : g.publish d = g.publish c := by
  have hchat : g.chatOf d = g.chatOf c := by
    unfold chatOf
    rw [h.option]
  have hcommon : ∀ chat, g.commonFields chat d = g.commonFields chat c := fun chat => by
    unfold commonFields
    rw [h.looked, h.looked, h.option]
  have htext : ∀ chat, g.textFields chat d = g.textFields chat c := fun chat => by
    unfold textFields
    rw [hcommon, h.looked, h.body]
  unfold publish
  simp only [hchat, hcommon, htext, h.body]

theorem Recorder.leave_shuffled (clock : Nat) (h : c.Shuffled d) : leave clock d = leave clock c := by
  unfold leave
  rw [h.body, h.option]

/-- Two adapters in the same surroundings. -/
structure Station.Shuffled (x y : Station) : Prop where
  adapter : x.adapter.Shuffled y.adapter
  site : y.site = x.site

namespace Station

theorem onSite_shuffled {α : Type} (x : Act Site α) : Mirrors Station.Shuffled (onSite x) :=
  Mirrors.within (mirrors_eq x) (fun _ _ h => h.site.symm) fun _ _ h _ _ hsite =>
    ⟨h.adapter, hsite.symm⟩

theorem verify_shuffled : Mirrors Station.Shuffled verify := by
  rintro ⟨a, u⟩ ⟨b, v⟩ h
  obtain ⟨hadapter, rfl⟩ : a.Shuffled b ∧ v = u := ⟨h.adapter, h.site⟩
  cases hadapter with
  | @dummy x posts hposts => exact Mirrors.ofOutcome x.verify _ _ h
  | telegram g => exact onSite_shuffled g.verify _ _ h
  | bare b => exact ⟨rfl, h⟩
  | recorder r =>
    show Agree _ ((onRecorder r Recorder.verify).outcome _) ((onRecorder r Recorder.verify).outcome _)
    rw [outcome_onRecorder]
    exact ⟨rfl, .recorder _, rfl⟩

theorem publish_shuffled (clock : Nat) (hc : c.Shuffled d) :
    Matches Station.Shuffled (publish clock c) (publish clock d) := by
  rintro ⟨a, u⟩ ⟨b, v⟩ h
  obtain ⟨hadapter, rfl⟩ : a.Shuffled b ∧ v = u := ⟨h.adapter, h.site⟩
  cases hadapter with
  | @dummy x posts hposts =>
    have hpost : Agree Station.Shuffled
        ((onDummy x (Dummy.publish c)).outcome ⟨.dummy x, v⟩)
        ((onDummy { x with posts := posts } (Dummy.publish d)).outcome
          ⟨.dummy { x with posts := posts }, v⟩) := by
      have hadmits : Dummy.admitsPost { x with posts := posts } d = x.admitsPost c := by
        unfold Dummy.admitsPost
        rw [hc.body]
        rfl
      rw [outcome_onDummy, outcome_onDummy, Dummy.outcome_publish_any, Dummy.outcome_publish_any,
        hadmits]
      cases x.admitsPost c with
      | error f => exact ⟨rfl, .dummy hposts, rfl⟩
      | ok _ => exact ⟨rfl, .dummy (forall₂_put hposts _ ⟨hc, rfl⟩), rfl⟩
    refine hpost.bind fun ref s t _ _ hst => ?_
    exact Mirrors.bind (onSite_shuffled _) (fun _ => Mirrors.pure ref) s t hst
  | telegram g =>
    show Agree _ ((onSite (g.publish c)).outcome _) ((onSite (g.publish d)).outcome _)
    rw [g.publish_shuffled hc]
    exact onSite_shuffled (g.publish c) _ _ h
  | bare b => exact ⟨rfl, h⟩
  | recorder r =>
    show Agree _ ((onRecorder r (Recorder.leave clock c)).outcome _)
      ((onRecorder r (Recorder.leave clock d)).outcome _)
    rw [Recorder.leave_shuffled clock hc, outcome_onRecorder]
    exact ⟨rfl, .recorder _, rfl⟩

end Station

/-! ### Worlds -/

/-- Two posts got to the same stage, of tasks that are equal. -/
structure Posting.Shuffled (p q : Posting) : Prop where
  task : p.task.Shuffled q.task
  stage : q.stage = p.stage

namespace World

/-- In two worlds the same was sent, told and written, and equal tasks were posted, by the same
adapters but for the options of the items that these keep. -/
structure Shuffled (u v : World) : Prop where
  adapters : ∀ name,
    Option.Rel Adapter.Shuffled (u.adapters.lookup name) (v.adapters.lookup name)
  site : v.site = u.site
  posts : List.Forall₂ Posting.Shuffled u.posts v.posts
  pace : v.pace = u.pace

namespace Shuffled

variable {u v : World} {t t' : Task} {α : Type}

theorem refl (u : World) : Shuffled u u where
  adapters name := by
    cases u.adapters.lookup name with
    | none => exact .none
    | some a => exact .some (.refl a)
  site := rfl
  posts := List.forall₂_same.2 fun p _ => ⟨.refl p.task, rfl⟩
  pace := rfl

theorem lag (h : Shuffled u v) : v.lag = u.lag := by
  rw [World.lag, World.lag, h.pace, h.posts.length_eq]

theorem adapter (h : Shuffled u v) (name : String) :
    Outcome.Rel Adapter.Shuffled (u.adapter name) (v.adapter name) := adapter_rel (h.adapters name)

theorem onJournal (h : Shuffled u v) (f : Journal → Journal) :
    Shuffled { u with site.journal := f u.site.journal }
      { v with site.journal := f v.site.journal } :=
  ⟨h.adapters, by rw [h.site], h.posts, h.pace⟩

theorem note (h : Shuffled u v) (ht : t.Shuffled t') (stage : Stage) :
    Shuffled (u.note t stage) (v.note t' stage) :=
  ⟨h.adapters, h.site, List.rel_append h.posts (.cons ⟨ht, rfl⟩ .nil), h.pace⟩

/-- The adapter under a name changes in both in the same way. -/
theorem put (h : Shuffled u v) (name : String) {x y : Station} (hs : x.Shuffled y) :
    Shuffled { u with adapters := u.adapters.put name x.adapter, site := x.site }
      { v with adapters := v.adapters.put name y.adapter, site := y.site } :=
  ⟨Registry.lookup_put_rel h.adapters hs.adapter name, hs.site, h.posts, h.pace⟩

theorem begin (h : Shuffled u v) (ht : t.Shuffled t') : Shuffled (u.begin t) (v.begin t') := by
  have hn := h.note ht .begun
  rw [World.begin, World.begin, ht.adapter]
  exact enter_rel (hn.adapter t.adapter) hn fun a b hab =>
    ⟨Registry.lookup_put_rel hn.adapters hab.enter t.adapter, hn.site, hn.posts, hn.pace⟩

theorem at_matches (name : String) {x y : Act Station α} (hxy : Matches Station.Shuffled x y) :
    Matches Shuffled (at_ name x) (at_ name y) := fun _ _ h =>
  at_agree (h.adapter name) h (fun _ _ hab => hxy _ _ ⟨hab, h.site⟩) fun _ _ => h.put name

theorem publish_matches (ht : t.Shuffled t') (clock : Nat) :
    Matches Shuffled (publish t clock) (publish t' clock) := by
  have hpost : Matches Shuffled (post t clock) (post t' clock) := fun u v h => by
    obtain ⟨ho, hs⟩ := at_matches t.adapter (Station.publish_shuffled clock ht.content) u v h
    rw [outcome_post, outcome_post, ht.adapter, ho]
    exact ⟨rfl, hs.note ht _⟩
  refine Matches.bind hpost fun ref => Matches.bind_get fun u v h => ?_
  rw [ht.adapter, ht.rule, adapterId_eq_of_rel (h.adapter _) fun _ _ => Adapter.Shuffled.id]
  exact Mirrors.bind (Mirrors.ofOutcome _) (fun id => Mirrors.pure _) u v h

theorem accords : Accords Task.Shuffled Shuffled where
  echoes := {
    adapterId := fun _ _ h name =>
      adapterId_eq_of_rel (h.adapter name) fun _ _ => Adapter.Shuffled.id
    rest? := fun _ _ h name => rest?_eq_of_rel (h.adapter name) fun _ _ => Adapter.Shuffled.rest?
    lag := fun _ _ h => h.lag
    emit := fun _ _ h e => h.onJournal (·.emit e)
    write := fun _ _ h r => h.onJournal (·.write r)
    begin := fun _ _ _ _ hf => hf.elim
    publish := fun _ _ hf => hf.elim }
  adapter _ _ h := h.adapter
  delay _ _ h := h.delay
  rule _ _ h := h.rule
  begin _ _ h _ _ ht := h.begin ht
  publish _ _ clock ht := publish_matches ht clock

end Shuffled

end World

/-! ### Batches -/

/-- Two batches of equal tasks. -/
structure Batch.Shuffled (b b' : Batch) : Prop where
  verify : b'.verify = b.verify
  tasks : List.Forall₂ Task.Shuffled b.tasks b'.tasks

namespace Session

/-- A session whose jobs all were tasks, as on a new scheduler. -/
structure Tasked (s : Session) : Prop where
  counted : 0 < s.scheduler.nextSeq
  threads : ∀ i ∈ s.scheduler.threads, i < s.scheduler.jobs.length
  works : ∀ job ∈ s.scheduler.jobs, ∃ (w : World) (t : Task), job.work = w.work t

variable {s t : Session}

theorem tasked_fresh (settings : Settings) (w : World) (lane : Lane) :
    Tasked { scheduler := Scheduler.fresh settings w, lane := lane } := ⟨Nat.one_pos, nofun, nofun⟩

theorem Tasked.abreast (h : s.Tasked) : Abreast World.Shuffled s s where
  lane := rfl
  calls := rfl
  scheduler := by
    refine Scheduler.follows_self h.counted h.threads (fun job hjob => ?_) (.refl _)
    obtain ⟨w, t, hwork⟩ := h.works job hjob
    rw [hwork]
    exact work_matches World.Shuffled.accords (.refl t) (.refl w)

theorem run_shuffled {b b' : Batch} (h : b.Shuffled b') :
    Matches (Abreast World.Shuffled) b.run b'.run := by
  rw [Batch.run, Batch.run, h.verify]
  exact execute_abreast World.Shuffled.accords
    (fun name => World.Shuffled.at_matches name Station.verify_shuffled) b.verify h.tasks

/-- Batches of equal tasks, one after the other, leave the sessions side by side. -/
theorem Abreast.after (h : Abreast World.Shuffled s t) {bs bs' : List Batch}
    (hbs : List.Forall₂ Batch.Shuffled bs bs') :
    Abreast World.Shuffled (s.after bs) (t.after bs') := by
  induction hbs generalizing s t with
  | nil => exact h
  | cons hb _ ih => exact ih (run_shuffled hb s t h).2

end Session

/-! ### What the order of keys carries -/

namespace Content

/-- In whatever order its keys and those of its options come, a mapping is the same item, with the
same tasks and the same requests. -/
structure OrderFree (es : Entries) : Prop where
  read : ∀ es', Reorders es es' →
    Outcome.Rel Shuffled (ofValue (.map es)) (ofValue (.map es'))
  tasks : ∀ es', Reorders es es' → ∀ known now rules (validator : Validator),
    validator.IgnoresOrder → Traced.Rel (List.Forall₂ Task.Shuffled)
      (Routing.tasks known now validator (.raw (.map es)) rules)
      (Routing.tasks known now validator (.raw (.map es')) rules)
  /-- Other batches may come before, also of items in another order. -/
  publish : ∀ es', Reorders es es' → ∀ known now rules (validator : Validator),
    validator.IgnoresOrder → ∀ ts ts',
      (Routing.tasks known now validator (.raw (.map es)) rules).outcome = .ok ts →
      (Routing.tasks known now validator (.raw (.map es')) rules).outcome = .ok ts' →
      ∀ s : Session, s.Tasked → ∀ before before', List.Forall₂ Batch.Shuffled before before' →
        ∀ verify, Agree (Session.Abreast World.Shuffled)
          ((Session.execute verify ts).outcome (s.after before))
          ((Session.execute verify ts').outcome (s.after before'))

/-- The order of keys carries no meaning if and only if no option is there under both its spellings
with different values. -/
theorem orderFree_iff (es : Entries) (hk : Keyed es) : OrderFree es ↔ ¬ IsCrossed es := by
  have hiff := read_shuffled_iff hk
  refine ⟨fun h => hiff.1 fun es' hes => ?_, fun hc => ?_⟩
  · have hread := h.read es' hes
    rwa [ofValue_map, ofValue_map] at hread
  · have hread : ∀ es', Reorders es es' →
        Outcome.Rel Shuffled (ofValue (.map es)) (ofValue (.map es')) := fun es' hes => by
      rw [ofValue_map, ofValue_map]
      exact hiff.2 hc es' hes
    have htasks : ∀ es', Reorders es es' → ∀ known now rules (validator : Validator),
        validator.IgnoresOrder → Traced.Rel (List.Forall₂ Task.Shuffled)
          (Routing.tasks known now validator (.raw (.map es)) rules)
          (Routing.tasks known now validator (.raw (.map es')) rules) :=
      fun es' hes _ _ rules _ hv =>
        Routing.tasks_shuffled hv (.raw (.map es)) (.raw (.map es')) (hread es' hes) rules
    refine ⟨hread, htasks, fun es' hes known now rules validator hv ts ts' hts hts' s hs before
      before' hbefore verify => ?_⟩
    have houtcome := (htasks es' hes known now rules validator hv).outcome
    rw [hts, hts'] at houtcome
    have hrel : List.Forall₂ Task.Shuffled ts ts' := by
      cases houtcome with
      | ok hrel => exact hrel
    have hbatch : Batch.Shuffled ⟨verify, ts⟩ ⟨verify, ts'⟩ := ⟨rfl, hrel⟩
    exact Session.run_shuffled hbatch _ _ (hs.abreast.after hbefore)

/-- An item with an option under both its spellings, which say the same. -/
def restated : Entries := [(.text "text", .text "hi"), (.text "options", .map
  [(.text "parseMode", .text "HTML"), (.text "channel", .text "@all"),
   (.text "parse_mode", .text "HTML")])]

theorem orderFree_restated : Keyed restated ∧ OrderFree restated := by
  have hoptions : ∀ os, Entries.get restated "options" = .map os → os =
      [(.text "parseMode", .text "HTML"), (.text "channel", .text "@all"),
        (.text "parse_mode", .text "HTML")] := fun os hos => (Value.map.inj hos).symm
  have hk : Keyed restated := by
    refine ⟨by decide, fun os hos => ?_⟩
    rw [hoptions os hos]
    decide
  refine ⟨hk, (orderFree_iff restated hk).2 ?_⟩
  rintro ⟨-, os, hos, second, first, v, w, halias, hv, hw, hne⟩
  rw [hoptions os hos] at hv hw
  simp only [aliases, List.mem_cons, Prod.mk.injEq, List.not_mem_nil, or_false] at halias
  obtain ⟨rfl, rfl⟩ | ⟨rfl, rfl⟩ | ⟨rfl, rfl⟩ | ⟨rfl, rfl⟩ := halias <;> simp at hv hw
  exact hne (hv.symm.trans hw)

/-- An item whose option is said twice, and says something else the second time. -/
def twice (first second : String × String) : Entries := [(.text "text", .text "hi"),
  (.text "options", .map [(.text first.1, .text first.2), (.text second.1, .text second.2)])]

theorem reorders_twice (first second : String × String) :
    Reorders (twice first second) (twice second first) :=
  ⟨twice second first, .cons ⟨rfl, .inl rfl⟩
    (.cons ⟨rfl, .inr ⟨rfl, _, _, rfl, rfl, .swap ..⟩⟩ .nil), .rfl⟩

/-- A session with a channel. -/
def newsroom : Session where
  scheduler := { world := { adapters := [("news", .telegram
    ⟨{}, .text "T", "@all", .text "HTML", .bool false, .int 10⟩)] } }

/-- The parse modes of the requests that are sent for an item. -/
def modes (es : Entries) : List String :=
  let found := Routing.tasks (· == "news") default Validator.body (.raw (.map es))
    (.ok [.rule { name := "all", publish := [{ adapter := "news" }] }])
  match found.outcome with
  | .error _ => []
  | .ok ts => ((Session.execute false ts).outcome newsroom).2.world.site.network.sent.filterMap
      fun r => match r.payload with
        | .json fields => match Entries.get fields "parse_mode" with
          | .text mode => some mode
          | _ => none
        | .form .. => none

/-- The same item in two orders is sent in two parse modes. -/
theorem not_orderFree_twice :
    Reorders (twice ("parseMode", "HTML") ("parse_mode", "Markdown"))
      (twice ("parse_mode", "Markdown") ("parseMode", "HTML")) ∧
    modes (twice ("parseMode", "HTML") ("parse_mode", "Markdown")) = ["Markdown"] ∧
    modes (twice ("parse_mode", "Markdown") ("parseMode", "HTML")) = ["HTML"] ∧
    ¬ OrderFree (twice ("parseMode", "HTML") ("parse_mode", "Markdown")) := by
  refine ⟨reorders_twice _ _, by decide +kernel, by decide +kernel, fun h => ?_⟩
  obtain ⟨d, hd, hshuffled⟩ := (h.read _ (reorders_twice _ _)).of_ok
  obtain rfl := Except.ok.inj hd
  have hlooked : some (Value.text "HTML") = some (.text "Markdown") :=
    hshuffled.looked "parse_mode"
  simp at hlooked

end Content

end Syndicate

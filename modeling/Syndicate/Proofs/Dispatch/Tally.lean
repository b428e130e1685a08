import Mathlib.Data.List.Induction
import Syndicate.Proofs.Dispatch.Execute

/-! What a batch tells of its posts, when nothing else is under way. An immediate post that came
about is told of at once. The deferred ones are told of when all of them have come about, so a batch
that fails tells of none. -/

namespace Syndicate

open Scheduler

/-- Whom an event says something was published for: a rule, and the id of an adapter. -/
def Event.published? : Event → Option (Value × Value)
  | .taskPublished rule id _ => some (rule, id)
  | _ => none

namespace World

/-- Whom something was published for, if a posting is the end of a post that came about. -/
def published? (w : World) (p : Posting) : Option (Value × Value) :=
  match p.stage with
  | .ended (.ok _) => some (p.task.rule, w.idOf p.task.adapter)
  | _ => none

/-- For each rule and each adapter as many events are told as posts came about. -/
def Accounts (w : World) (ps : List Posting) (es : List Event) : Prop :=
  (es.filterMap Event.published?).Perm (ps.filterMap w.published?)

/-- Whom a task was published for. -/
def payee (w : World) (r : Task × PostRef) : Value × Value := (r.1.rule, w.idOf r.1.adapter)

variable (w : World) (done : List (Task × PostRef))

@[simp] theorem published_posted :
    (done.flatMap posted).filterMap w.published? = done.map w.payee := by
  induction done with
  | nil => rfl
  | cons r done ih =>
    rw [List.flatMap_cons, List.filterMap_append, ih]
    rfl

@[simp] theorem published_publishing :
    (done.map fun r => (w.publishing r).event).filterMap Event.published? = done.map w.payee := by
  induction done with
  | nil => rfl
  | cons r done ih =>
    rw [List.map_cons, List.filterMap_cons, ih]
    rfl

@[simp] theorem published_scheduling (ts : List Task) :
    (ts.map w.scheduling).filterMap Event.published? = [] := by
  induction ts with
  | nil => rfl
  | cons t ts ih => rw [List.map_cons, List.filterMap_cons, ih]; rfl

end World

/-- Warnings say of nothing that it was published. -/
theorem published_warnings {es : List Event} (h : ∀ e ∈ es, e.isWarning = true) :
    es.filterMap Event.published? = [] := by
  rw [List.filterMap_eq_nil_iff]
  intro e he
  have hw := h e he
  cases e with
  | taskPublished => cases hw
  | _ => rfl

/-! ### The posts of an interleaving -/

theorem rowOf_filter {k n : Nat} (h : k ≠ n) (log : List (Nat × Posting)) :
    rowOf k (log.filter fun e => e.1 ≠ n) = rowOf k log := by
  rw [rowOf, rowOf, List.filter_filter]
  congr 2
  funext e
  by_cases hk : e.1 = k
  · simp [hk, h]
  · simp [hk]

/-- In whatever order the postings of tasks came, they are those of one task after the other. -/
theorem perm_rows {α : Type} {row : α → List Posting} {later : List α}
    {log : List (Nat × Posting)} (hlt : ∀ e ∈ log, e.1 < later.length)
    (h : ∀ k r, later[k]? = some r → rowOf k log = row r) :
    (log.map Prod.snd).Perm (later.flatMap row) := by
  -- Tasks are numbered from the front, so the last one is taken off: the others keep their numbers.
  induction later using List.reverseRecOn generalizing log with
  | nil =>
    have hnil : log = [] := List.eq_nil_iff_forall_not_mem.2 fun e he => by
      simpa using hlt e he
    rw [hnil]
    exact .refl _
  | append_singleton later r ih =>
    let others := log.filter fun e => e.1 ≠ later.length
    have hothers : (others.map Prod.snd).Perm (later.flatMap row) := by
      apply ih
      · intro e he
        obtain ⟨hmem, hne⟩ := List.mem_filter.1 he
        have hle := hlt e hmem
        rw [List.length_append, List.length_singleton] at hle
        simp only [ne_eq, decide_not, Bool.not_eq_true', decide_eq_false_iff_not] at hne
        omega
      · intro k q hk
        have hlt' := (List.getElem?_eq_some_iff.1 hk).1
        rw [rowOf_filter (by omega)]
        exact h k q (by rw [List.getElem?_append_left hlt', hk])
    have hlast : rowOf later.length log = row r := h _ r (by simp)
    have hsplit : (others ++ log.filter fun e => !decide (e.1 ≠ later.length)).Perm log :=
      List.filter_append_perm _ log
    have hrow : (log.filter fun e => !decide (e.1 ≠ later.length)).map Prod.snd = row r := by
      rw [← hlast, rowOf]
      simp
    rw [List.flatMap_append, List.flatMap_singleton, ← hrow]
    have hmap := (hsplit.map Prod.snd).symm
    rw [List.map_append] at hmap
    exact hmap.trans (hothers.append_right _)

/-- Each posting of a task is a posting of that task. -/
theorem UnderWay.task {b : Nat} {ts : List Task} {w : World} {log : List (Nat × Posting)}
    {m : Scheduler World Publishing} (h : UnderWay b ts w log m) :
    ∀ e ∈ log, ts[e.1]? = some e.2.task := by
  rintro ⟨k, p⟩ he
  obtain ⟨t, ht⟩ : ∃ t, ts[k]? = some t := ⟨_, List.getElem?_eq_getElem (h.within _ he)⟩
  obtain ⟨job, -, -, htrack⟩ := h.jobs k t ht
  have hp := mem_rowOf.2 he
  dsimp only
  rw [ht]
  generalize job.phase = phase at htrack
  generalize rowOf k log = row at htrack hp
  cases htrack with
  | unfired => simp at hp
  | running =>
    obtain rfl := List.mem_singleton.1 hp
    rfl
  | finished o =>
    rcases List.mem_cons.1 hp with rfl | hp
    · rfl
    · obtain rfl := List.mem_singleton.1 hp
      rfl

namespace Session

variable {s s₁ s₂ : Session} {ts : List Task} {verify : Bool}

/-- What a batch tells of its posts: those of the immediate tasks, and those of the deferred tasks
if it returns. -/
structure Tally (s : Session) (verify : Bool) (ts : List Task) (now : List Posting)
    (log : List (Nat × Posting)) (es : List Event) : Prop where
  leads : s.world.Leads (now ++ log.map Prod.snd) es ((execute verify ts).outcome s).2.world
  immediate : ∀ p ∈ now, p.task ∈ immediateOf (keptOf verify ts s)
  deferred : ∀ e ∈ log, (deferredOf (keptOf verify ts s))[e.1]? = some e.2.task
  returned : ((execute verify ts).outcome s).1.isOk = true →
    s.world.Accounts (now ++ log.map Prod.snd) es
  failed : ((execute verify ts).outcome s).1.isOk = false →
    es.filterMap Event.published? = now.filterMap s.world.published?

/-- A batch accounts for its posts if and only if it returns or no deferred post came about. -/
theorem Tally.accounts_iff {now : List Posting} {log : List (Nat × Posting)} {es : List Event}
    (h : Tally s verify ts now log es) :
    s.world.Accounts (now ++ log.map Prod.snd) es ↔
      ((execute verify ts).outcome s).1.isOk = true ∨
        ∀ e ∈ log, s.world.published? e.2 = none := by
  have hlater : (log.map Prod.snd).filterMap s.world.published? = [] ↔
      ∀ e ∈ log, s.world.published? e.2 = none := by
    rw [List.filterMap_eq_nil_iff, List.forall_mem_map]
  cases hok : ((execute verify ts).outcome s).1.isOk with
  | true => exact iff_of_true (h.returned hok) (.inl rfl)
  | false =>
    rw [World.Accounts, h.failed hok, List.filterMap_append, ← hlater]
    constructor
    · intro hperm
      have hlen := hperm.length_eq
      rw [List.length_append] at hlen
      exact .inr (List.eq_nil_of_length_eq_zero (by omega))
    · intro hnil
      rcases hnil with hnil | hnil
      · cases hnil
      · rw [hnil, List.append_nil]

/-- A batch that ends before its deferred tasks. -/
theorem Aborted.tally {f : Failure} {ps : List Posting} {es : List Event}
    (h : Aborted s.world (keptOf verify ts s) f ps es)
    (hr : ∀ t ∈ immediateOf (keptOf verify ts s), s.world.Reportable t)
    (hl : s.world.Leads ps es s₁.world) (ho : (upToLane verify ts).outcome s = (.error f, s₁)) :
    Tally s verify ts ps [] es := by
  have he : (execute verify ts).outcome s = (.error f, s₁) := by
    rw [execute_eq, Act.outcome_bind_error ho]
  refine ⟨?_, ?_, by simp, fun hok => ?_, fun _ => ?_⟩
  · rw [he, List.map_nil, List.append_nil]
    exact hl
  · cases h with
    | gate => simp
    | task _ _ done t rest o hts =>
      intro p hp
      rw [hts]
      rcases List.mem_append.1 hp with hp | hp
      · obtain ⟨r, hmem, hpr⟩ := List.mem_flatMap.1 hp
        have ht : p.task = r.1 := by
          rcases List.mem_pair.1 hpr with rfl | rfl <;> rfl
        rw [ht]
        exact List.mem_append_left _ (List.mem_map_of_mem hmem)
      · have ht : p.task = t := by
          rcases List.mem_pair.1 hp with rfl | rfl <;> rfl
        simp [ht]
  · rw [he] at hok
    cases hok
  · cases h with
    | gate _ hes => rw [published_warnings hes]; rfl
    | task es hes done t rest o hts hlast =>
      have hend : o = .error f := by
        rcases hlast with hlast | ⟨-, hnot⟩
        · exact hlast
        · exact absurd (hr t (by rw [hts]; simp)) hnot
      rw [List.filterMap_append, published_warnings hes, World.published_publishing,
        List.filterMap_append, World.published_posted, hend]
      simp [World.published?]

namespace Reached

variable {now : List (Task × PostRef)} {es es' : List Event} {log : List (Nat × Posting)}
  (h : Reached s verify ts now es s₁)
include h

theorem told : (es ++ now.map fun r => (s.world.publishing r).event).filterMap Event.published? =
    now.map s.world.payee := by
  rw [List.filterMap_append, published_warnings h.warnings, World.published_publishing,
    List.nil_append]

theorem task_mem : ∀ p ∈ now.flatMap posted, p.task ∈ immediateOf (keptOf verify ts s) := by
  intro p hp
  obtain ⟨r, hmem, hpr⟩ := List.mem_flatMap.1 hp
  have ht : p.task = r.1 := by
    rcases List.mem_pair.1 hpr with rfl | rfl <;> rfl
  rw [ht, ← h.immediate]
  exact List.mem_map_of_mem hmem

theorem tally_alone (hd : deferredOf (keptOf verify ts s) = []) :
    Tally s verify ts (now.flatMap posted) []
      (es ++ now.map fun r => (s.world.publishing r).event) := by
  have hend := h.execute_alone hd
  have htold := h.told
  refine ⟨?_, h.task_mem, by simp, fun _ => ?_, fun hok => ?_⟩
  · rw [hend, List.map_nil, List.append_nil]
    exact h.leads
  · rw [World.Accounts, htold, List.map_nil, List.append_nil, World.published_posted]
  · rw [hend] at hok
    cases hok

/-- A batch that fails with its deferred tasks has told of the immediate ones only. -/
theorem tally_failed {f : Failure} (hend : (execute verify ts).outcome s = (.error f, s₂))
    (hl : s₁.world.Leads (log.map Prod.snd) es' s₂.world)
    (htask : ∀ e ∈ log, (deferredOf (keptOf verify ts s))[e.1]? = some e.2.task)
    (hes : es'.filterMap Event.published? = []) :
    Tally s verify ts (now.flatMap posted) log
      (es ++ now.map (fun r => (s.world.publishing r).event) ++ es') := by
  refine ⟨?_, h.task_mem, htask, fun hok => ?_, fun _ => ?_⟩
  · rw [hend]
    exact h.leads.trans hl
  · rw [hend] at hok
    cases hok
  · rw [List.filterMap_append, h.told, hes, List.append_nil, World.published_posted]

/-- A batch that returns has told of the deferred tasks after the immediate ones. -/
theorem tally_returned {ps : List Publishing} {later : List (Task × PostRef)} {us : List Task}
    (hend : (execute verify ts).outcome s = (.ok ps, s₂))
    (hl : s₁.world.Leads (log.map Prod.snd)
      (us.map s.world.scheduling ++ later.map fun r => (s.world.publishing r).event) s₂.world)
    (htask : ∀ e ∈ log, (deferredOf (keptOf verify ts s))[e.1]? = some e.2.task)
    (hposts : (log.map Prod.snd).Perm (later.flatMap posted)) :
    Tally s verify ts (now.flatMap posted) log
      (es ++ now.map (fun r => (s.world.publishing r).event) ++
        (us.map s.world.scheduling ++ later.map fun r => (s.world.publishing r).event)) := by
  have hpaid : ((log.map Prod.snd).filterMap s.world.published?).Perm
      (later.map s.world.payee) := by
    rw [← World.published_posted]
    exact hposts.filterMap _
  refine ⟨?_, h.task_mem, htask, fun _ => ?_, fun hok => ?_⟩
  · rw [hend]
    exact h.leads.trans hl
  · rw [World.Accounts, List.filterMap_append, h.told, List.filterMap_append,
      World.published_scheduling, List.nil_append, World.published_publishing,
      List.filterMap_append, World.published_posted]
    exact hpaid.symm.append_left _
  · rw [hend] at hok
    cases hok

variable (hl : s.lane ≠ .inline) (hi : s.scheduler.Idle)
  (hd : deferredOf (keptOf verify ts s) ≠ [])
include hl hi hd

theorem tally_admitted (hr : ∀ t ∈ keptOf verify ts s, s.world.Reportable t)
    (hadm : ∀ t ∈ deferredOf (keptOf verify ts s),
      s₁.world.admission s₁.opened.scheduler.settings t = .ok ()) :
    ∃ log es, Tally s verify ts (now.flatMap posted) log es := by
  have hsch : s₁.world.scheduling = s.world.scheduling := World.scheduling_congr h.leads.ids
  have hpub : s₁.world.publishing = s.world.publishing := World.publishing_congr h.leads.ids
  cases hlane : (withOwnScheduler (publishDeferred (deferredOf (keptOf verify ts s)))).outcome
    s₁ with
  | mk o s₂ =>
    obtain ⟨w, log, hw, hunder, hends⟩ :=
      deferred_ends (h.stays.lane ▸ hl) (h.stays.idle hi) hadm hlane
    rw [hsch] at hw
    have htask := hunder.task
    have hleads := hw.trans hunder.leads
    rw [List.nil_append, List.append_nil] at hleads
    cases hends with
    | returns later hlater hrows =>
      rw [hpub] at hlane
      rw [← hlater] at hunder
      have hshow := event_showable hunder hrows fun r hmem =>
        hr _ (List.mem_of_mem_filter (hlater ▸ List.mem_map_of_mem hmem))
      obtain ⟨w', ho', hl'⟩ := afterLane_ok_of
        (r := (now.map s.world.publishing, deferredOf (keptOf verify ts s))) hd hlane hshow
      have hall := hleads.trans hl'
      rw [List.append_nil, List.map_map] at hall
      exact ⟨log, _, h.tally_returned (h.execute_rest.trans ho') hall htask
        (perm_rows (fun e he => by simpa using hunder.within e he) hrows)⟩
    | hangs | fails =>
      exact ⟨log, _, h.tally_failed (h.execute_error hd hlane) hleads htask
        (World.published_scheduling _ _)⟩

theorem tally_refused (hadm : ¬ ∀ t ∈ deferredOf (keptOf verify ts s),
    s₁.world.admission s₁.opened.scheduler.settings t = .ok ()) :
    ∃ log es, Tally s verify ts (now.flatMap posted) log es := by
  cases hlane : (withOwnScheduler (publishDeferred (deferredOf (keptOf verify ts s)))).outcome
    s₁ with
  | mk o s₂ =>
    obtain ⟨done, t, rest, f, n, w, log, hts, -, -, rfl, hw, hunder, -⟩ :=
      deferred_refused (h.stays.lane ▸ hl) (h.stays.idle hi) hadm hlane
    have hleads := hw.trans hunder.leads
    rw [List.nil_append, List.append_nil] at hleads
    refine ⟨log, _, h.tally_failed (h.execute_error hd hlane) hleads (fun e he => ?_)
      (World.published_scheduling _ _)⟩
    have htask := hunder.task e he
    rw [hts, List.getElem?_append_left (List.getElem?_eq_some_iff.1 htask).1, htask]

end Reached

/-- Whatever fails, a batch tells of its immediate posts, and of its deferred ones only if it
returns: so no post that came about is missing from what it tells if and only if it returns or no
deferred post came about. -/
theorem execute_accounts_iff (s : Session) (hl : s.lane ≠ .inline) (hi : s.scheduler.Idle)
    (verify : Bool) (ts : List Task) (hr : ∀ t ∈ keptOf verify ts s, s.world.Reportable t) :
    ∃ now log es, Tally s verify ts now log es ∧
      (s.world.Accounts (now ++ log.map Prod.snd) es ↔
        ((execute verify ts).outcome s).1.isOk = true ∨
          ∀ e ∈ log, s.world.published? e.2 = none) := by
  have htally : ∃ now log es, Tally s verify ts now log es := by
    rcases upToLane_ends hi verify ts with ⟨now, es, s₁, h, -⟩ |
        ⟨f, ps, es, s₁, -, haborted, -, hleads, ho⟩
    · by_cases hd : deferredOf (keptOf verify ts s) = []
      · exact ⟨_, _, _, h.tally_alone hd⟩
      · by_cases hadm : ∀ t ∈ deferredOf (keptOf verify ts s),
            s₁.world.admission s₁.opened.scheduler.settings t = .ok ()
        · obtain ⟨log, es', htally⟩ := h.tally_admitted hl hi hd hr hadm
          exact ⟨_, log, es', htally⟩
        · obtain ⟨log, es', htally⟩ := h.tally_refused hl hi hd hadm
          exact ⟨_, log, es', htally⟩
    · exact ⟨ps, [], es, haborted.tally (fun t ht => hr t (List.mem_of_mem_filter ht)) hleads ho⟩
  obtain ⟨now, log, es, h⟩ := htally
  exact ⟨now, log, es, h, h.accounts_iff⟩

/-- The first post comes about, and the second one fails. -/
def partly : List Task := [rehearsed "a" "good" 5, rehearsed "a" "bad" 10]

theorem accounts_partly : ∃ now log es, Tally rehearsal false partly now log es ∧
    (rehearsal.world.Accounts (now ++ log.map Prod.snd) es ↔
      ((execute false partly).outcome rehearsal).1.isOk = true ∨
        ∀ e ∈ log, rehearsal.world.published? e.2 = none) := by
  refine execute_accounts_iff rehearsal (by decide) (idle_fresh _ _) false partly fun t ht => ?_
  have hid : rehearsal.world.adapterId "a" = .ok (.text "a") := rfl
  rcases List.mem_pair.1 ht with rfl | rfl <;> exact ⟨rfl, _, hid, rfl⟩

/-- A deferred post that came about is not told of when a later one fails. -/
theorem not_accounts_partly : ¬ rehearsal.world.Accounts
    ((execute false partly).outcome rehearsal).2.world.posts
    ((execute false partly).outcome rehearsal).2.world.site.journal.events := by
  have htold : (((execute false partly).outcome rehearsal).2.world.site.journal.events.filterMap
      Event.published?).length = 0 := by decide +kernel
  have hcame : (((execute false partly).outcome rehearsal).2.world.posts.filterMap
      rehearsal.world.published?).length = 1 := by decide +kernel
  intro haccounts
  have hlen := haccounts.length_eq
  omega

end Session

end Syndicate

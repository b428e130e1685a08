import Syndicate.Proofs.Dispatch.Links
import Syndicate.Proofs.Dispatch.Settle
import Syndicate.Proofs.Scheduler.Follow

/-! Batches one after another on one scheduler. A batch comes to what it would come to on a new
scheduler, as long as every batch before it has left nothing under way, and only a batch that is
interrupted while it submits its tasks leaves anything. -/

namespace Syndicate

open Scheduler
open Act (Agree Mirrors)

namespace Act

variable {σ α β : Type}

/-- Two runs have come to what corresponds to one another, and to related states. -/
def AgreeBy (g : α → α) (R : σ → σ → Prop) (p q : Outcome α × σ) : Prop :=
  q.1 = g <$> p.1 ∧ R p.2 q.2

variable {R : σ → σ → Prop} {s t : σ} {g : α → α} {k : β → β}

theorem AgreeBy.bind {x y : Act σ α} {f f' : α → Act σ β}
    (hx : AgreeBy g R (x.outcome s) (y.outcome t))
    (hf : ∀ a s' t', R s' t' → AgreeBy k R ((f a).outcome s') ((f' (g a)).outcome t')) :
    AgreeBy k R ((x >>= f).outcome s) ((y >>= f').outcome t) := by
  obtain ⟨ho, hr⟩ := hx
  rw [outcome_bind, outcome_bind]
  cases hs : x.outcome s with
  | mk o s' =>
    cases ht : y.outcome t with
    | mk o' t' =>
      rw [hs, ht] at ho hr
      dsimp only at ho hr
      subst ho
      cases o with
      | ok a => exact hf a s' t' hr
      | error e => exact ⟨rfl, hr⟩

theorem agreeBy_id {p q : Outcome α × σ} : AgreeBy id R p q ↔ Agree R p q := by
  rw [AgreeBy, Agree, id_map]

end Act

open Act (AgreeBy agreeBy_id)

namespace Session

/-- A session whose scheduler has served other batches before, beside one whose scheduler has
not. -/
structure Follows (old : List (Job World Publishing)) (d : Nat) (s t : Session) : Prop where
  shared : s.lane = .shared
  lane : t.lane = .shared
  scheduler : Scheduler.Follows Eq old d s.scheduler t.scheduler

namespace Follows

variable {old : List (Job World Publishing)} {d : Nat} {s t : Session} {α : Type}

theorem links : Links Eq (Follows old d) where
  worlds _ _ h := h.scheduler.worlds
  clock _ _ h := h.scheduler.clock
  setWorld _ _ h _ _ hr := ⟨h.shared, h.lane, h.scheduler.inWorld hr⟩
  sleep _ _ h time := ⟨h.shared, h.lane, h.scheduler.sleep time⟩

theorem worlds (h : Follows old d s t) : t.world = s.world := h.scheduler.worlds.symm

theorem setScheduler (h : Follows old d s t) {m n : Scheduler World Publishing}
    (hm : Scheduler.Follows Eq old d m n) :
    Follows old d (s.setScheduler m) (t.setScheduler n) :=
  ⟨h.shared, h.lane, hm⟩

theorem left (h : Follows old d s t) : s.lane ≠ .inline := by simp [h.shared]

theorem right (h : Follows old d s t) : t.lane ≠ .inline := by simp [h.lane]

/-! ### Submitting -/

theorem submitJob (h : Follows old d s t) (u : Task) :
    AgreeBy (· + old.length) (Follows old d) ((submitJob u).outcome s)
      ((submitJob u).outcome t) := by
  have hwrite := links.writeAll (World.echoes_eq fun _ => True)
    (cutLine s.scheduler.settings u.delay).toList s t h
  rw [Session.submitJob, Act.outcome_bind_ok (Act.outcome_get s),
    Act.outcome_bind_ok (Act.outcome_get t), h.scheduler.settings]
  refine (agreeBy_id.2 hwrite).bind fun _ s t h => ?_
  rw [Act.outcome_bind_ok (Act.outcome_get s), Act.outcome_bind_ok (Act.outcome_get t), h.worlds]
  rcases h.scheduler.submit (s.world.work u).matches_self u.delay with
    ⟨f, hs, ht⟩ | ⟨i, m, n, hs, ht, hm⟩
  · rw [hs, ht]
    exact ⟨rfl, h⟩
  · rw [hs, ht]
    exact ⟨rfl, h.setScheduler hm⟩

theorem place (h : Follows old d s t) (u : Task) :
    AgreeBy (· + old.length) (Follows old d) ((place u).outcome s) ((place u).outcome t) := by
  have hannounce := links.announce (World.echoes_eq fun _ => True) u s t h
  refine (agreeBy_id.2 hannounce).bind fun _ s t h => ?_
  rw [outcome_submit h.left, outcome_submit h.right]
  exact h.submitJob u

theorem submitAll (h : Follows old d s t) (ts : List Task) :
    AgreeBy (List.map (· + old.length)) (Follows old d) ((submitAll ts).outcome s)
      ((submitAll ts).outcome t) := by
  induction ts generalizing s t with
  | nil => exact ⟨rfl, h⟩
  | cons u ts ih =>
    rw [submitAll_cons]
    refine (h.place u).bind fun i s t h => ?_
    exact (ih h).bind fun is s t h => ⟨rfl, h⟩

/-! ### Waiting -/

section Waiting

variable {m n : Scheduler World Publishing} (h : Scheduler.Follows Eq old d m n)
include h

theorem firstFailure? (jobs : List Nat) :
    firstFailure? n (jobs.map (· + old.length)) = firstFailure? m jobs := by
  rw [Session.firstFailure?, List.findSome?_map]
  exact congrArg jobs.findSome? (funext h.failure?)

theorem results (jobs : List Nat) :
    results n (jobs.map (· + old.length)) = results m jobs := by
  induction jobs with
  | nil => rfl
  | cons i jobs ih => rw [List.map_cons, Session.results, Session.results, h.future, ih]

theorem haveSettled (jobs : List Nat) :
    haveSettled n (jobs.map (· + old.length)) = haveSettled m jobs := by
  rw [Session.haveSettled, Session.haveSettled, h.all_hasSettled]

end Waiting

theorem settle (h : Follows old d s t) (jobs : List Nat) :
    Agree (Follows old d) ((settle jobs).outcome s)
      ((settle (jobs.map (· + old.length))).outcome t) := by
  have hwait := h.scheduler.waitFirst jobs
  have hall := (hwait.cancel jobs).waitAll jobs
  rw [outcome_settle h.left, outcome_settle h.right, firstFailure? hwait, haveSettled hwait,
    haveSettled hall, results hwait]
  cases Session.firstFailure? (s.scheduler.waitFirst jobs) jobs with
  | none => exact ⟨rfl, h.setScheduler hwait⟩
  | some f => exact ⟨rfl, h.setScheduler hall⟩

theorem publishDeferred (ts : List Task) : Mirrors (Follows old d) (publishDeferred ts) :=
  fun _ _ h => agreeBy_id.1 ((h.submitAll ts).bind fun jobs _ _ h => agreeBy_id.2 (h.settle jobs))

end Follows

theorem opened_shared {s : Session} (hl : s.lane = .shared) : s.opened = s := by
  rw [opened, if_neg (by simp [hl])]

theorem shut_shared (s : Session) : s.shut .shared = s := rfl

namespace Follows

variable {old : List (Job World Publishing)} {d : Nat} {α : Type}

theorem withOwnScheduler {x : Act Session α} (hx : Mirrors (Follows old d) x) :
    Mirrors (Follows old d) (withOwnScheduler x) := by
  intro s t h
  rw [outcome_withOwnScheduler, outcome_withOwnScheduler, opened_shared h.shared,
    opened_shared h.lane, h.shared, h.lane]
  exact hx s t h

/-- A batch comes to the same in both sessions. -/
theorem execute (verify : Bool) (ts : List Task) :
    Mirrors (Follows old d) (execute verify ts) := by
  have hr := World.echoes_eq fun _ => True
  rw [execute_eq]
  refine Mirrors.bind ?_ fun r => ?_
  · refine Mirrors.bind (links.keptBy hr (fun _ => mirrors_eq _) verify ts) fun kept => ?_
    refine Mirrors.bind (links.write hr _) fun _ => ?_
    exact Mirrors.bind (links.publishEach hr fun _ _ => trivial) fun _ => Mirrors.pure _
  · unfold afterLane
    split
    · exact Mirrors.pure _
    · refine Mirrors.bind (withOwnScheduler (publishDeferred r.2)) fun later => ?_
      exact Mirrors.bind (links.reportAll hr later) fun _ => Mirrors.pure _

end Follows

/-! ### What a batch leaves on the scheduler -/

variable {s s' : Session}

/-- Once all jobs are over or waited for, nothing is left when the wait has ended. -/
theorem settle_idle (hl : s.lane ≠ .inline) (hs : s.scheduler.Sound) {jobs : List Nat}
    (hj : ∀ k < s.scheduler.jobs.length,
      k ∈ jobs ∨ Holds (fun job => job.phase.isOver = true) k s.scheduler) :
    ((settle jobs).outcome s).2.scheduler.Idle ∧
      ((settle jobs).outcome s).2.scheduler.settings = s.scheduler.settings := by
  have hwait : s.scheduler.Aged (s.scheduler.waitFirst jobs) := hs.aged_runWhile _
  obtain ⟨hcs, hct⟩ := hwait.sound.cancel jobs
  have hall : ((s.scheduler.waitFirst jobs).cancel jobs).Aged
      (((s.scheduler.waitFirst jobs).cancel jobs).waitAll jobs) := hcs.aged_runWhile _
  rw [outcome_settle hl]
  cases hf : firstFailure? (s.scheduler.waitFirst jobs) jobs with
  | none =>
    have hnone := List.findSome?_eq_none_iff.1 hf
    refine ⟨hwait.sound.idle_of_over fun job hmem => ?_, hwait.settings⟩
    obtain ⟨k, hk⟩ := List.mem_iff_getElem?.1 hmem
    have hlt := (List.getElem?_eq_some_iff.1 hk).1
    rw [hwait.length] at hlt
    rcases hj k hlt with hin | hover
    · exact hs.waitFirst_over jobs hnone hin hk
    · exact (kept_over.runWhile hs hover _).of_getElem? hk
  | some f =>
    refine ⟨hall.sound.idle_of_over fun job hmem => ?_,
      hall.settings.trans (hct.settings.trans hwait.settings)⟩
    obtain ⟨k, hk⟩ := List.mem_iff_getElem?.1 hmem
    have hlt := (List.getElem?_eq_some_iff.1 hk).1
    rw [hall.length, hct.length, hwait.length] at hlt
    rcases hj k hlt with hin | hover
    · exact hcs.waitAll_over jobs hin hk
    · have hcancelled := kept_over.told_of hct (kept_over.runWhile hs hover _)
      exact (kept_over.waitAll hcs hcancelled jobs).of_getElem? hk

/-- The jobs that are waited for are all that are not over. -/
theorem Submitted.waited {ts : List Task} {es : List Event} (h : s.Submitted ts es s')
    (hi : s.scheduler.Idle) : ∀ k < s'.scheduler.jobs.length,
      k ∈ List.range' s.scheduler.jobs.length ts.length ∨
        Holds (fun job => job.phase.isOver = true) k s'.scheduler := by
  intro k hk
  by_cases hold : k < s.scheduler.jobs.length
  · obtain ⟨js, hjobs, -⟩ := h.jobs
    refine .inr ⟨s.scheduler.jobs[k], ?_, hi.ended _ (List.getElem_mem hold)⟩
    rw [hjobs, List.getElem?_append_left hold, List.getElem?_eq_getElem hold]
  · rw [h.length] at hk
    rw [List.mem_range'_1]
    omega

/-- A job of a batch, whose jobs are numbered from `b` on, is not over. -/
def Unfinished (b : Nat) (m : Scheduler World Publishing) : Prop :=
  ∃ k, b ≤ k ∧ Holds (fun job => job.phase.isOver = false) k m

/-- A batch that is refused leaves the jobs that were submitted before, unless they are over. -/
theorem idle_refused_iff {ts : List Task} {es : List Event} (hi : s.scheduler.Idle)
    (h : s.Submitted ts es s') :
    s'.scheduler.Idle ↔ ¬ Unfinished s.scheduler.jobs.length s'.scheduler := by
  constructor
  · rintro hidle ⟨k, -, job, hj, hp⟩
    rw [hidle.ended job (List.mem_of_getElem? hj)] at hp
    cases hp
  · intro hnone
    obtain ⟨js, hjobs, -⟩ := h.jobs
    refine h.sound.idle_of_over fun job hmem => ?_
    obtain ⟨k, hk⟩ := List.mem_iff_getElem?.1 hmem
    by_cases hold : k < s.scheduler.jobs.length
    · rw [hjobs, List.getElem?_append_left hold] at hk
      exact hi.ended job (List.mem_of_getElem? hk)
    · by_contra hover
      exact hnone ⟨k, Nat.le_of_not_lt hold, job, hk, by simpa using hover⟩

/-- The deferred tasks of a batch leave the scheduler as it was made, and idle if all of them became
jobs. -/
theorem publishDeferred_idle (hl : s.lane = .shared) (hi : s.scheduler.Idle) (ts : List Task) :
    ((publishDeferred ts).outcome s).2.scheduler.settings = s.scheduler.settings ∧
    (((publishDeferred ts).outcome s).2.scheduler.Idle ↔
      (((submitAll ts).outcome s).1.isOk = false →
        ¬ Unfinished s.scheduler.jobs.length ((submitAll ts).outcome s).2.scheduler)) := by
  have hlane : s.lane ≠ .inline := by simp [hl]
  rcases submitAll_cases hlane hi.sound ts with ⟨-, s', ho, hsub⟩ |
      ⟨done, t, rest, f, n, s', -, -, -, ho, hsub⟩
  · have hd : (publishDeferred ts).outcome s = (settle _).outcome s' := Act.outcome_bind_ok ho
    obtain ⟨hidle, hsettings⟩ := settle_idle (hsub.lane ▸ hlane) hsub.sound (hsub.waited hi)
    rw [hd, ho]
    exact ⟨hsettings.trans hsub.settings, iff_of_true hidle nofun⟩
  · have hd : (publishDeferred ts).outcome s = (.error f, s') := Act.outcome_bind_error ho
    rw [hd, ho]
    exact ⟨hsub.settings, (idle_refused_iff hi hsub).trans ⟨fun h _ => h, fun h => h rfl⟩⟩

theorem Evolves.idle (h : s.Evolves s') (hi : s.scheduler.Idle) :
    s'.scheduler.Idle ∧ s'.scheduler.settings = s.scheduler.settings ∧
      s'.scheduler.jobs.length = s.scheduler.jobs.length := by
  obtain ⟨ops, hops, hm⟩ := h.ops
  rw [hm]
  exact ⟨hi.run hops, hi.sound.settings_run ops, hi.sound.length_run hops⟩

/-- A batch leaves the scheduler as it was made, and idle unless a task could not become a job while
jobs of others were not over. -/
theorem execute_idle (hl : s.lane = .shared) (hi : s.scheduler.Idle) (verify : Bool)
    (ts : List Task) :
    ((execute verify ts).outcome s).2.scheduler.settings = s.scheduler.settings ∧
    (((execute verify ts).outcome s).2.scheduler.Idle ↔
      ((crux verify ts s).refused = true →
        ¬ Unfinished s.scheduler.jobs.length (crux verify ts s).scheduler)) := by
  have hlane := (upToLane_evolves verify ts s)
  obtain ⟨hidle, hsettings, hlen⟩ := hlane.idle hi
  rw [execute_eq, crux]
  cases hu : (upToLane verify ts).outcome s with
  | mk o s₁ =>
    rw [hu] at hlane hidle hsettings hlen
    cases o with
    | error f =>
      rw [Act.outcome_bind_error hu]
      exact ⟨hsettings, iff_of_true hidle fun h => absurd h Bool.false_ne_true⟩
    | ok r =>
      have hl₁ : s₁.lane = .shared := hlane.lane.trans hl
      have hopened : s₁.opened = s₁ := opened_shared hl₁
      rw [Act.outcome_bind_ok hu]
      dsimp only
      rw [hopened]
      by_cases hr : r.2 = []
      · rw [afterLane, if_pos hr, hr]
        exact ⟨hsettings, iff_of_true hidle fun h => absurd h Bool.false_ne_true⟩
      · obtain ⟨hsame, hiff⟩ := publishDeferred_idle hl₁ hidle r.2
        rw [← hlen]
        cases hsub : (submitAll r.2).outcome s₁ with
        | mk o s₂ =>
          rw [hsub] at hiff
          cases o with
          | error f =>
            have hd : (publishDeferred r.2).outcome s₁ = (.error f, s₂) :=
              Act.outcome_bind_error hsub
            have hafter := afterLane_error hr (hopened ▸ hd)
            rw [hafter, hl₁, shut_shared]
            rw [hd] at hsame hiff
            exact ⟨hsame.trans hsettings, hiff.trans ⟨fun h _ => h rfl, fun h _ => h rfl⟩⟩
          | ok jobs =>
            have htalks := afterLane_talks (s := s₁) hr
            rw [hopened, hl₁, shut_shared] at htalks
            obtain ⟨hafter, hkept, -⟩ := htalks.idle
              (hiff.2 fun h => absurd h.symm Bool.false_ne_true)
            exact ⟨hkept.trans (hsame.trans hsettings),
              iff_of_true hafter fun h => absurd h Bool.false_ne_true⟩

end Session

/-! ### Batches one after another -/

/-- A batch of tasks, and whether their adapters are verified first. -/
structure Batch where
  verify : Bool := false
  tasks : List Task

def Batch.run (b : Batch) : Act Session (List Publishing) := Session.execute b.verify b.tasks

namespace Session

/-- The session after some batches. -/
def after (s : Session) (bs : List Batch) : Session := bs.foldl (fun s b => (b.run.outcome s).2) s

/-- A new scheduler in the place of the one there was, in the same world and at the same time. -/
def anew (settings : Settings) (s : Session) : Session :=
  s.setScheduler { fresh settings s.world with clock := s.scheduler.clock }

/-- Whether a task of a batch cannot become a job, while jobs of others are not over. -/
def Interrupted (s : Session) (b : Batch) : Prop :=
  (crux b.verify b.tasks s).refused = true ∧
    Unfinished s.scheduler.jobs.length (crux b.verify b.tasks s).scheduler

/-- A session between batches in which nothing is under way. -/
structure Rests (settings : Settings) (s : Session) : Prop where
  lane : s.lane = .shared
  idle : s.scheduler.Idle
  settings : s.scheduler.settings = settings
  counted : 0 < s.scheduler.nextSeq
  threads : ∀ t ∈ s.scheduler.threads, t < s.scheduler.jobs.length

/-- A batch comes to what it would come to on a new scheduler, and leaves nothing under way unless it
is interrupted. -/
structure ServedAnew (settings : Settings) (s : Session) (b : Batch) : Prop where
  outcome : (b.run.outcome s).1 = (b.run.outcome (s.anew settings)).1
  world : (s.after [b]).world = ((s.anew settings).after [b]).world
  clock : (s.after [b]).scheduler.clock = ((s.anew settings).after [b]).scheduler.clock
  idle : (s.after [b]).scheduler.Idle ↔ ¬ s.Interrupted b

variable {settings : Settings} {s : Session}

theorem rests_anew (settings : Settings) (hl : s.lane = .shared) :
    (s.anew settings).Rests settings where
  lane := hl
  idle := ⟨rfl, by simp [anew, setScheduler, fresh], rfl, rfl⟩
  settings := rfl
  counted := Nat.one_pos
  threads := by simp [anew, setScheduler, fresh]

namespace Rests

variable (h : s.Rests settings)
include h

theorem follows : Follows s.scheduler.jobs (s.scheduler.nextSeq - 1) (s.anew settings) s := by
  have hm := h.idle.follows (R := Eq) (w := s.world) h.counted h.threads rfl
  rw [h.settings] at hm
  exact ⟨h.lane, h.lane, hm⟩

theorem agree (b : Batch) : Agree (Follows s.scheduler.jobs (s.scheduler.nextSeq - 1))
    (b.run.outcome (s.anew settings)) (b.run.outcome s) :=
  Follows.execute b.verify b.tasks _ _ h.follows

theorem idle_iff (b : Batch) : (s.after [b]).scheduler.Idle ↔ ¬ s.Interrupted b := by
  rw [Interrupted, not_and]
  exact (execute_idle h.lane h.idle b.verify b.tasks).2

theorem next {b : Batch} (hb : ¬ s.Interrupted b) : (s.after [b]).Rests settings := by
  have hf : Follows _ _ ((s.anew settings).after [b]) (s.after [b]) := (h.agree b).2
  have hsame := (execute_idle h.lane h.idle b.verify b.tasks).1
  refine ⟨hf.lane, (h.idle_iff b).2 hb, hsame.trans h.settings, ?_, hf.scheduler.threads_lt⟩
  rw [hf.scheduler.nextSeq]
  exact Nat.add_pos_left hf.scheduler.counted _

theorem servedAnew (b : Batch) : ServedAnew settings s b where
  outcome := (h.agree b).1
  world := (h.agree b).2.worlds
  clock := (h.agree b).2.scheduler.clock
  idle := h.idle_iff b

omit h in
theorem after (h : s.Rests settings) {bs : List Batch}
    (hb : ∀ done b rest, bs = done ++ b :: rest → ¬ (s.after done).Interrupted b) :
    (s.after bs).Rests settings := by
  induction bs generalizing s with
  | nil => exact h
  | cons b bs ih =>
    refine ih (h.next (hb [] b bs rfl)) fun done c rest hbs => ?_
    exact hb (b :: done) c rest (by rw [hbs, List.cons_append])

end Rests

/-- On one scheduler each batch comes to what it would come to on a new one, whatever became of the
batches before it, as long as none of them was interrupted. -/
theorem run_anew (settings : Settings) (s : Session) (hl : s.lane = .shared) (before : List Batch)
    (hb : ∀ done b rest, before = done ++ b :: rest →
      ¬ ((s.anew settings).after done).Interrupted b) (b : Batch) :
    ServedAnew settings ((s.anew settings).after before) b :=
  ((rests_anew settings hl).after hb).servedAnew b

/-- A session with a scheduler for all batches, an adapter that takes its time, and one without an
id. -/
def season : Session where
  scheduler := fresh {} { adapters := [
    ("a", .recorder { id := .text "a", duration := 10, failOn := [.text "bad"] }),
    ("b", .bare {})] }
  lane := .shared

/-- The first post fails while the second one waits for its slot and the third one for its time. -/
def opening : Batch where
  tasks := [rehearsed "a" "bad" 5, rehearsed "a" "good" 6, rehearsed "a" "late" 40]

def closing : Batch where
  tasks := [rehearsed "a" "next" 20, rehearsed "a" "now" 0]

theorem servedAnew_closing : ServedAnew { maxConcurrency := some 1 }
    ((season.anew { maxConcurrency := some 1 }).after [opening]) closing := by
  refine run_anew { maxConcurrency := some 1 } season rfl [opening] (fun done b rest hbs => ?_)
    closing
  have hwhole : (crux false opening.tasks (season.anew { maxConcurrency := some 1 })).refused =
      false := by decide +kernel
  obtain ⟨rfl, rfl⟩ : done = [] ∧ b = opening := by
    cases done with
    | nil => simp_all
    | cons c done => simp at hbs
  rintro ⟨hrefused, -⟩
  exact Bool.false_ne_true (hwhole.symm.trans hrefused)

/-- The second task cannot be announced when the first one has become a job. -/
def broken : Batch where
  tasks := [rehearsed "a" "early" 5, rehearsed "b" "never" 5]

/-- The job of a batch that was interrupted is done in the next batch, although none of its tasks was
refused by the scheduler. -/
theorem not_servedAnew_broken :
    (∀ t ∈ broken.tasks, (Settings.wait {} t.delay).isOk = true) ∧
    ((season.anew {}).world.adapterId "b").isOk = false ∧
    ¬ ServedAnew {} ((season.anew {}).after [broken]) closing := by
  have hposts : (((season.anew {}).after [broken]).after [closing]).world.posts.length = 6 := by
    decide +kernel
  have hanew : ((((season.anew {}).after [broken]).anew {}).after [closing]).world.posts.length =
      4 := by decide +kernel
  refine ⟨?_, rfl, fun h => ?_⟩
  · have hall : (broken.tasks.all fun t => (Settings.wait {} t.delay).isOk) = true := by
      decide +kernel
    exact List.all_eq_true.1 hall
  · rw [h.world, hanew] at hposts
    cases hposts

end Session

end Syndicate

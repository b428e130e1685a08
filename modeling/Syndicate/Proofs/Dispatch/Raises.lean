import Syndicate.Proofs.Dispatch.Settle

/-! Which failure a batch raises when several of its deferred posts fail. It is the failure that
came first. An earlier task of the batch whose post is under way by then may still fail, and its
failure is not raised, although it comes first in the order in which the tasks were submitted. -/

namespace Syndicate

open Scheduler

namespace Session

variable {s s' : Session}

/-- The deferred tasks that a batch comes to, and the session in which it comes to them. -/
def laneOf (verify : Bool) (ts : List Task) (s : Session) : List Task × Session :=
  match (upToLane verify ts).outcome s with
  | (.ok r, s₁) => (r.2, s₁)
  | (.error _, s₁) => ([], s₁)

/-- Job `k` of a batch, whose jobs are numbered from `b` on, is the first to raise something, at the
time `m`, and the batch ends with that unless a job is lost. By the time `n` at which it has ended, job `k` is also the
first in the order in which the jobs were submitted if and only if none of those before it that were
past their delay and not over at the time `m` has raised anything. -/
structure Raises (b : Nat) (m n : Scheduler World Publishing) (o : Outcome (List Publishing))
    (k : Nat) (f : Failure) : Prop where
  outcome : ¬ Lost b n → o = .error f
  ours : b ≤ k
  atCrux : m.raised? k = some f
  atEnd : n.raised? k = some f
  alone : ∀ j, b ≤ j → m.raised? j ≠ none → j = k
  first_iff : (∀ j, b ≤ j → j < k → n.raised? j = none) ↔
    ∀ j job, b ≤ j → j < k → m.jobs[j]? = some job → job.phase.isEarly = false →
      job.phase.isOver = false → n.raised? j = none

theorem lt_of_raised {m : Scheduler World Publishing} {k : Nat} (h : m.raised? k ≠ none) :
    k < m.jobs.length := by
  by_contra hge
  have hk : m.jobs[k]? = none := List.getElem?_eq_none (Nat.le_of_not_lt hge)
  simp [Scheduler.raised?, hk] at h

namespace AtCrux

variable {b : Nat} {ts : List Task} {jobs : List Nat} {m : Scheduler World Publishing} {k : Nat}
  {settings : Settings} {ops : List (Op World Publishing)} (h : AtCrux settings b ts jobs m)
include h

theorem failure?_eq (hk : k ∈ jobs) : m.failure? k = m.raised? k :=
  failure?_of_free (h.free k hk)

theorem mem_of_raised (hb : b ≤ k) (hk : m.raised? k ≠ none) : k ∈ jobs :=
  (h.mem k).2 ⟨hb, lt_of_raised hk⟩

/-- If none has failed, none of the jobs of a batch ever raises anything. -/
theorem none_raised (hf : firstFailure? m jobs = none) (hops : ∀ op ∈ ops, op.submits = false)
    (hb : b ≤ k) : (m.run ops).raised? k = none := by
  have hnone : ∀ i ∈ jobs, m.failure? i = none := List.findSome?_eq_none_iff.1 hf
  by_contra hk
  have hlt := lt_of_raised hk
  rw [h.sound.length_run hops] at hlt
  have hin : k ∈ jobs := (h.mem k).2 ⟨hb, hlt⟩
  apply hk
  rw [h.sound.raised?_run (h.allOver hnone k hin), ← h.failure?_eq hin, hnone k hin]

/-- A job before the end of its delay raises nothing once it was told to stop. -/
theorem early_raised (hk : k ∈ jobs) {job : Job World Publishing} (hj : m.jobs[k]? = some job)
    (he : job.phase.isEarly = true) :
    (((m.cancel jobs).waitAll jobs).run ops).raised? k = none := by
  have hfree := (h.free k hk).of_getElem? hj
  have hcalled := calledOff_settled h.sound hk hj he hfree.revoked ops
  exact raised?_of_unfired (hcalled.unfired [])

/-- The failure that is found first is raised, and it is the only one by then. -/
theorem raises {f : Failure} {o : Outcome (List Publishing)}
    (hf : firstFailure? m jobs = some f)
    (ho : ¬ Lost b (((m.cancel jobs).waitAll jobs).run ops) → o = .error f) :
    ∃ k, Raises b m (((m.cancel jobs).waitAll jobs).run ops) o k f := by
  obtain ⟨k, hk, hfk⟩ := List.exists_of_findSome?_eq_some hf
  have hthen : m.raised? k = some f := by rw [← h.failure?_eq hk, hfk]
  have hstays : ∀ j job, m.jobs[j]? = some job → job.phase.isOver = true →
      (((m.cancel jobs).waitAll jobs).run ops).raised? j = m.raised? j := fun j job hj hover =>
    h.sound.raised?_run ⟨job, hj, hover⟩ (.cancel jobs :: .waitAll jobs :: ops)
  have halone : ∀ j, b ≤ j → m.raised? j ≠ none → j = k := by
    intro j hb hj
    have hin := h.mem_of_raised hb hj
    apply h.unique j hin k hk
    · rwa [h.failure?_eq hin]
    · simp [hfk]
  refine ⟨k, ho, ((h.mem k).1 hk).1, hthen, ?_, halone, fun hfirst j _ hb hjk _ _ _ =>
    hfirst j hb hjk, fun hunder j hb hjk => ?_⟩
  · obtain ⟨job, hj⟩ : ∃ job, m.jobs[k]? = some job :=
      ⟨_, List.getElem?_eq_getElem ((h.mem k).1 hk).2⟩
    have hover : job.phase.isOver = true := by
      rw [raised?_of hj] at hthen
      cases hp : job.phase with
      | ended => rfl
      | _ => simp [hp, Phase.raised?] at hthen
    rw [hstays k job hj hover, hthen]
  · -- A job before its delay is called off, and one that is over has not failed: what is left was
    -- under way.
    have hlt : j < m.jobs.length := Nat.lt_trans hjk ((h.mem k).1 hk).2
    have hj := List.getElem?_eq_getElem hlt
    cases he : m.jobs[j].phase.isEarly with
    | true => exact h.early_raised ((h.mem j).2 ⟨hb, hlt⟩) hj he
    | false =>
      cases hover : m.jobs[j].phase.isOver with
      | false => exact hunder j _ hb hjk hj he hover
      | true =>
        rw [hstays j _ hj hover]
        by_contra hne
        have := halone j hb hne
        omega

end AtCrux

/-- How a batch chooses the failure that it raises. -/
structure Chooses (s : Session) (verify : Bool) (ts : List Task) : Prop where
  /-- The jobs of a batch are those of its deferred tasks, in their order, and a job is lost only if
  its task waits too long. -/
  jobs : (crux verify ts s).refused = false → ∀ i t, (laneOf verify ts s).1[i]? = some t →
    Holds (IsOf (laneOf verify ts s).2.opened.scheduler.settings t) (s.scheduler.jobs.length + i)
      ((execute verify ts).outcome s).2.scheduler
  /-- If one of them raises something, the batch raises what came first, if it ends. -/
  raises : (crux verify ts s).refused = false →
    (∃ k, s.scheduler.jobs.length ≤ k ∧
      ((execute verify ts).outcome s).2.scheduler.raised? k ≠ none) →
    ∃ k f, Raises s.scheduler.jobs.length (crux verify ts s).scheduler
      ((execute verify ts).outcome s).2.scheduler ((execute verify ts).outcome s).1 k f
  /-- If one of them is lost, the batch has no end. -/
  endless : (crux verify ts s).refused = false →
    Lost s.scheduler.jobs.length ((execute verify ts).outcome s).2.scheduler →
    ((execute verify ts).outcome s).1 = .error (.fault .endless)
  /-- If a task cannot become a job, the batch raises why, whatever the jobs raise. -/
  refused : (crux verify ts s).refused = true → ∃ t f, t ∈ (laneOf verify ts s).1 ∧
    (laneOf verify ts s).2.world.admission (laneOf verify ts s).2.opened.scheduler.settings t =
      .error f ∧
    ((execute verify ts).outcome s).1 = .error f

/-- A batch one of whose deferred tasks cannot become a job raises why. -/
theorem refused_raises (h : s.Ready) {r : List Publishing × List Task} {f : Failure} (hr : r.2 ≠ [])
    (ho : (submitAll r.2).outcome s.opened = (.error f, s')) :
    ((afterLane r).outcome s).1 = .error f ∧
    ∃ t ∈ r.2, s.world.admission s.opened.scheduler.settings t = .error f := by
  obtain ⟨hlane, hsound, -⟩ := h.opened
  have hworld : s.opened.world = s.world := by
    unfold Session.opened
    split <;> rfl
  have hd : (publishDeferred r.2).outcome s.opened = (.error f, s') := Act.outcome_bind_error ho
  rw [afterLane_error hr hd]
  rcases submitAll_cases (hlane ▸ h.lane) hsound r.2 with ⟨-, s'', ho', -⟩ |
      ⟨done, t, rest, g, n, s'', hts, -, hg, ho', -⟩
  · rw [ho] at ho'
    cases ho'
  · rw [ho] at ho'
    cases ho'
    rw [hworld] at hg
    exact ⟨rfl, t, by rw [hts]; simp, hg⟩

section Chooses

variable {verify : Bool} {ts : List Task} {s₁ s₂ : Session}

/-- A batch without jobs of its own. -/
theorem chooses_without (hc : (crux verify ts s).refused = false)
    (hl : (laneOf verify ts s).1 = [])
    (hn : ((execute verify ts).outcome s).2.scheduler.jobs.length ≤ s.scheduler.jobs.length) :
    Chooses s verify ts := by
  refine ⟨fun _ i t ht => ?_, fun _ hraised => ?_, fun _ hlost => ?_, fun hr => ?_⟩
  · simp [hl] at ht
  · obtain ⟨k, hb, hk⟩ := hraised
    have := lt_of_raised hk
    omega
  · obtain ⟨k, hb, job, hk, -⟩ := hlost
    have := (List.getElem?_eq_some_iff.1 hk).1
    omega
  · rw [hc] at hr
    cases hr

variable {r : List Publishing × List Task} (hu : (upToLane verify ts).outcome s = (.ok r, s₁))
  (h : s₁.Ready) (hr : r.2 ≠ [])
include hu h hr

theorem chooses_refused {f : Failure}
    (hsub : (submitAll r.2).outcome s₁.opened = (.error f, s₂)) : Chooses s verify ts := by
  have hl : laneOf verify ts s = (r.2, s₁) := by rw [laneOf, hu]
  have hc : crux verify ts s = ⟨true, s₂.scheduler⟩ := by simp only [crux, hu, hsub]
  refine ⟨fun hf => ?_, fun hf => ?_, fun hf => ?_, fun _ => ?_⟩
  · simp [hc] at hf
  · simp [hc] at hf
  · simp [hc] at hf
  · obtain ⟨hraised, t, ht, hadm⟩ := refused_raises h hr hsub
    rw [execute_eq, Act.outcome_bind_ok hu, hl]
    exact ⟨t, f, ht, hadm, hraised⟩

theorem chooses_settled {jobs : List Nat} (hlen : s₁.scheduler.jobs.length = s.scheduler.jobs.length)
    (hsub : (submitAll r.2).outcome s₁.opened = (.ok jobs, s₂)) : Chooses s verify ts := by
  have hl : laneOf verify ts s = (r.2, s₁) := by rw [laneOf, hu]
  have hc : crux verify ts s = ⟨false, s₂.scheduler.waitFirst jobs⟩ := by
    simp only [crux, hu, hsub]
  have he : (execute verify ts).outcome s = (afterLane r).outcome s₁ := by
    rw [execute_eq, Act.outcome_bind_ok hu]
  obtain ⟨hcrux, ops, hops, hends⟩ := atCrux_ends h hr hsub
  rw [hlen] at hcrux hends
  refine ⟨fun _ i t ht => ?_, fun _ hraised => ?_, fun _ hlost => ?_, fun hf => ?_⟩
  · rw [hl] at ht ⊢
    rw [he]
    rcases hends with ⟨-, -, ha⟩ | ⟨f, -, -, ha⟩
    · rw [ha]
      exact (kept_isOf _ t).run hcrux.sound (hcrux.works i t ht) ops
    · rw [ha]
      exact (kept_isOf _ t).run hcrux.sound (hcrux.works i t ht)
        (.cancel jobs :: .waitAll jobs :: ops)
  · obtain ⟨k, hb, hk⟩ := hraised
    rw [he] at hk ⊢
    rw [hc]
    rcases hends with ⟨hf, -, ha⟩ | ⟨f, hf, ho, ha⟩
    · rw [ha] at hk
      exact absurd (hcrux.none_raised hf hops hb) hk
    · rw [ha] at ho ⊢
      obtain ⟨k, hraises⟩ := hcrux.raises hf ho.1
      exact ⟨k, f, hraises⟩
  · rw [he] at hlost ⊢
    rcases hends with ⟨hf, ho, ha⟩ | ⟨f, -, ho, -⟩
    · have hover := hcrux.allOver (List.findSome?_eq_none_iff.1 hf)
      rw [ha, lost_run_iff hcrux.sound hops hcrux.mem hover] at hlost
      exact ho hlost
    · exact ho.2 hlost
  · simp [hc] at hf

end Chooses

/-- When deferred posts of a batch fail, the batch raises the failure that came first, which is that
of the first failing task in the order of submission if and only if no earlier one, whose post was
under way by then, fails after it; when a task waits too long, the batch has no end; and when a task
cannot be submitted, it raises why. -/
theorem execute_chooses (s : Session) (h : s.Ready) (verify : Bool) (ts : List Task) :
    Chooses s verify ts := by
  obtain ⟨hready, hlen⟩ := h.evolves (upToLane_evolves verify ts s)
  cases hu : (upToLane verify ts).outcome s with
  | mk o s₁ =>
    rw [hu] at hready hlen
    cases o with
    | error f =>
      have he : (execute verify ts).outcome s = (.error f, s₁) := by
        rw [execute_eq, Act.outcome_bind_error hu]
      refine chooses_without (by rw [crux, hu]) (by rw [laneOf, hu]) ?_
      rw [he]
      exact Nat.le_of_eq hlen
    | ok r =>
      by_cases hr : r.2 = []
      · have he : (execute verify ts).outcome s = (.ok r.1, s₁) := by
          rw [execute_eq, Act.outcome_bind_ok hu, afterLane, if_pos hr, Act.outcome_pure]
        refine chooses_without ?_ (by rw [laneOf, hu]; exact hr) ?_
        · simp [crux, hu, hr, submitAll]
        · rw [he]
          exact Nat.le_of_eq hlen
      · cases hsub : (submitAll r.2).outcome s₁.opened with
        | mk o s₂ =>
          cases o with
          | error f => exact chooses_refused hu hready hr hsub
          | ok jobs => exact chooses_settled hu hready hr hlen hsub

/-- A session with an adapter that takes its time, and another one. -/
def relay : Session where
  scheduler := fresh {} { adapters := [
    ("a", .recorder { id := .text "a", duration := 10, failOn := [.text "slow"] }),
    ("b", .recorder { id := .text "b", failOn := [.text "quick"] })] }

/-- The first post is under way when the second one fails, and fails later. -/
def overtaken : List Task := [rehearsed "a" "slow" 5, rehearsed "b" "quick" 7]

theorem raises_overtaken : ∃ k f, Raises 0 (crux false overtaken relay).scheduler
    ((execute false overtaken).outcome relay).2.scheduler
    ((execute false overtaken).outcome relay).1 k f := by
  have hrefused : (crux false overtaken relay).refused = false := by decide +kernel
  have hraised : (((execute false overtaken).outcome relay).2.scheduler.raised? 1).isSome = true := by
    decide +kernel
  have hready : relay.Ready := .inl ⟨rfl, idle_fresh _ _⟩
  refine (execute_chooses relay hready false overtaken).raises hrefused ⟨1, Nat.zero_le 1, ?_⟩
  intro hnone
  rw [hnone] at hraised
  cases hraised

/-- The failure of the second task is raised, although the first one fails as well. -/
theorem not_first_overtaken :
    (((execute false overtaken).outcome relay).2.scheduler.raised? 0).map Failure.message =
      some "boom: slow" ∧
    (((execute false overtaken).outcome relay).2.scheduler.raised? 1).map Failure.message =
      some "boom: quick" ∧
    (match ((execute false overtaken).outcome relay).1 with
      | .ok _ => none | .error f => some f.message) = some "boom: quick" := by
  decide +kernel

end Session

end Syndicate

import Syndicate.Proofs.Dispatch.Returned

/-! Batches that end with an error which is none of the domain: it is that of a post, or of a deferred
task that cannot be submitted, or verification has failed in a way that cannot be shown. -/

namespace Syndicate

namespace Session

open Scheduler

variable {s s' : Session} {ts : List Task} {f : Failure}

/-! ### Without verification -/

/-- Where the failure of a batch comes from: a post, or a deferred task that cannot be submitted, or
one that waits too long, so that the batch has no end. -/
inductive ComesOf (s : Session) (ts : List Task) (f : Failure) (s' : Session) : Prop
  | post {ps : List Posting} {p : Posting} (hposts : s'.world.posts = s.world.posts ++ ps)
    (hp : p ∈ ps) (hf : p.failure? = some f)
  | submit {t : Task} (ht : t ∈ deferredOf ts)
    (hf : s.world.admission s.opened.scheduler.settings t = .error f)
  | endless {t : Task} (ht : t ∈ deferredOf ts) (hlong : ¬ s.Waitable t)
    (hf : f = .fault .endless)

/-- The failure of deferred tasks. -/
theorem deferred_comesOf (hl : s.lane ≠ .inline) (hi : s.scheduler.Idle)
    (ho : (withOwnScheduler (publishDeferred (deferredOf ts))).outcome s = (.error f, s')) :
    ComesOf s ts f s' := by
  by_cases hadm : ∀ t ∈ deferredOf ts, s.world.admission s.opened.scheduler.settings t = .ok ()
  · obtain ⟨w, log, hw, hunder, hends⟩ := deferred_ends hl hi hadm ho
    cases hends with
    | hangs _ hlong =>
      obtain ⟨t, ht, hnot⟩ := hlong
      exact .endless ht hnot rfl
    | @fails before after k t _ _ hlog _ _ hraised _ =>
      rcases hraised with rfl | ⟨rfl, u, hu, hnot⟩
      · have hposts : s'.world.posts = _ := (hw.trans hunder.leads).posts
        rw [List.nil_append] at hposts
        exact .post (p := ⟨t, .ended (.error f)⟩) hposts (by rw [hlog]; simp) rfl
      · exact .endless hu hnot rfl
  · obtain ⟨done, t, rest, g, n, w, log, hts, -, hf, hg, -⟩ := deferred_refused hl hi hadm ho
    cases hg
    exact .submit (by rw [hts]; simp) hf

theorem ComesOf.of_leads {s₁ : Session} {ps : List Posting} {es : List Event}
    (h : ComesOf s₁ ts f s') (hleads : s.world.Leads ps es s₁.world)
    (hsettings : s₁.opened.scheduler.settings = s.opened.scheduler.settings) :
    ComesOf s ts f s' := by
  rcases h with ⟨hposts, hp, hf⟩ | ⟨ht, hf⟩ | ⟨ht, hlong, hf⟩
  · rw [hleads.posts, List.append_assoc] at hposts
    exact .post hposts (List.mem_append_right ps hp) hf
  · refine .submit ht ?_
    rwa [hsettings, World.admission_congr hleads.ids] at hf
  · rw [Waitable, hsettings] at hlong
    exact .endless ht hlong hf

/-- A batch without verification fails with a post or with a deferred task. -/
theorem unverified_comesOf (hl : s.lane ≠ .inline) (hi : s.scheduler.Idle)
    (hr : ∀ t ∈ ts, s.world.Reportable t)
    (h : (execute false ts).outcome s = (.error f, s')) : ComesOf s ts f s' := by
  rcases upToLane_ends hi false ts with ⟨now, es, s₁, hreached, -⟩ |
      ⟨g, ps, es, s₁, -, haborted, hps, hleads, ho⟩
  · by_cases hd : deferredOf ts = []
    · rw [hreached.execute_alone hd] at h
      cases h
    · have hlane₁ := hreached.stays.lane ▸ hl
      have hidle₁ := hreached.stays.idle hi
      cases hlane : (withOwnScheduler (publishDeferred (deferredOf ts))).outcome s₁ with
      | mk o s₂ =>
        cases o with
        | error g =>
          rw [hreached.execute_error hd hlane] at h
          cases h
          exact (deferred_comesOf hlane₁ hidle₁ hlane).of_leads hreached.leads
            hreached.stays.settings_opened
        | ok later =>
          -- What came about can be reported, so that the batch returns.
          obtain ⟨-, -, w, log, done, -, hunder, hdone, hrows, -, rfl⟩ :=
            deferred_ok hlane₁ hidle₁ hlane
          have hr₁ : ∀ r ∈ done, s₁.world.Reportable r.1 := fun r hmem =>
            (World.reportable_congr hreached.leads.ids r.1).2
              (hr _ (List.mem_of_mem_filter (hdone ▸ List.mem_map_of_mem hmem)))
          rw [← hdone] at hunder
          obtain ⟨w', ho', -⟩ := afterLane_ok_of
            (r := (now.map s.world.publishing, deferredOf ts)) hd hlane
            (event_showable hunder hrows hr₁)
          rw [hreached.execute_rest] at h
          cases h.symm.trans ho'
  · rw [execute_eq, Act.outcome_bind_error ho] at h
    cases h
    obtain ⟨p, hp, hf⟩ := haborted.fails (hps rfl) fun t ht => hr t (List.mem_of_mem_filter ht)
    exact .post hleads.posts hp hf

/-! ### With verification -/

theorem askEach_of (w : World) (names : List String) :
    ∀ v ∈ (w.askEach names).1, ∃ o, v.2 = .of o := by
  induction names generalizing w with
  | nil => exact fun v hv => absurd hv List.not_mem_nil
  | cons name names ih =>
    have hfirst : ∃ o, (w.ask name).1 = .of o := ⟨_, rfl⟩
    rw [World.askEach_cons]
    split
    · exact fun v hv => List.mem_singleton.1 hv ▸ hfirst
    · exact fun v hv => (List.mem_cons.1 hv).elim (fun h => h ▸ hfirst) (ih _ v)

/-- Only an adapter that lacks the operation ends the asking. -/
theorem lacking_notImplemented {w : World} {names : List String}
    (h : (w.askEach names).1.lacking? = some f) : f.isNotImplemented = true := by
  obtain ⟨v, hv, hf⟩ := List.exists_of_findSome?_eq_some h
  obtain ⟨o, ho⟩ := askEach_of w names v hv
  rw [ho] at hf
  unfold Answer.of at hf
  split at hf
  · split at hf <;> cases hf
  · split at hf
    · cases hf
      assumption
    · cases hf

/-- A gate that fails with a fault has asked an adapter whose failure cannot be shown. -/
theorem gate_fault {g : Fault} (hr : ∀ t ∈ ts, s.world.Reportable t)
    (h : (gate ts).outcome s = (.error (.fault g), s')) :
    ∃ v ∈ (s.world.askEach (adaptersOf ts)).1, v.2.isShowable = false := by
  by_contra hnot
  have hshow : ∀ v ∈ (s.world.askEach (adaptersOf ts)).1, v.2.isShowable = true := by
    simpa using hnot
  have hgate := gate_eq hr hshow
  dsimp only at hgate
  rw [h] at hgate
  cases hl : (s.world.askEach (adaptersOf ts)).1.lacking? with
  | none =>
    rw [hl] at hgate
    cases hgate
  | some f =>
    rw [hl] at hgate
    cases hgate
    cases lacking_notImplemented hl

/-- Where a fault comes from that ends a batch: a failed verification that cannot be shown, or one of
the tasks that verification lets through. -/
inductive BrokenBy (s : Session) (verify : Bool) (ts : List Task) (g : Fault) (s' : Session) : Prop
  | verification {v : String × Answer} (hverify : verify = true)
    (hv : v ∈ (s.world.askEach (adaptersOf ts)).1) (h : v.2.isShowable = false)
  | task (h : ComesOf s (dueOf verify ts s.world) (.fault g) s')

theorem execute_brokenBy (hl : s.lane ≠ .inline) (hi : s.scheduler.Idle) {verify : Bool} {g : Fault}
    (hr : ∀ t ∈ ts, s.world.Reportable t)
    (h : (execute verify ts).outcome s = (.error (.fault g), s')) : BrokenBy s verify ts g s' := by
  cases verify with
  | false => exact .task (unverified_comesOf hl hi hr h)
  | true =>
    cases hgate : (gate ts).outcome s with
    | mk o s₀ =>
      cases o with
      | error f =>
        have herror : (execute true ts).outcome s = (.error f, s₀) := Act.outcome_bind_error hgate
        rw [herror] at h
        cases h
        obtain ⟨v, hv, hshow⟩ := gate_fault hr hgate
        exact .verification rfl hv hshow
      | ok kept =>
        have hkept := gate_ok hr hgate
        have htalks := keptBy_talks true ts s
        rw [show (keptBy true ts).outcome s = _ from hgate] at htalks
        obtain ⟨w, es, rfl, hleads⟩ := htalks
        have hrest : (execute true ts).outcome s = (execute false kept).outcome (s.setWorld w) :=
          Act.outcome_bind_ok hgate
        rw [hrest] at h
        have hsub : ∀ t ∈ kept, t ∈ ts := fun t ht => by
          rw [hkept] at ht
          exact List.mem_of_mem_filter ht
        have hcomes := unverified_comesOf (s := s.setWorld w) hl
          ⟨hi.queue, hi.ended, hi.pending, hi.slots⟩
          (fun t ht => (World.reportable_congr hleads.ids t).2 (hr t (hsub t ht))) h
        refine .task ?_
        rw [dueOf, if_pos rfl, ← hkept]
        exact hcomes.of_leads hleads (stays_setWorld s w).settings_opened

end Session

end Syndicate

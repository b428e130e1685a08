import Syndicate.Proofs.Adapter.Alike
import Syndicate.Proofs.Dispatch.Immediate

/-! The gate of verification. Every adapter of a batch is asked once, in the order in which the tasks
come to it, and then the tasks of those that failed are dropped. An adapter that lacks the operation
ends the batch. -/

namespace Syndicate

/-- What an adapter's answer means for its tasks. -/
inductive Answer where
  | passed
  /-- With the cause, which a false answer has none of. -/
  | failed (cause : Option Failure)
  /-- There is no such operation. -/
  | lacking (f : Failure)

namespace Answer

def of : Outcome Value → Answer
  | .ok v => if v.truthy then .passed else .failed none
  | .error f => if f.isNotImplemented then .lacking f else .failed (some f)

def isPassed : Answer → Bool
  | .passed => true
  | _ => false

def lacking? : Answer → Option Failure
  | .lacking f => some f
  | _ => none

/-- Whether a failed verification can be shown. -/
def isShowable : Answer → Bool
  | .failed cause => cause.all Failure.isShowable
  | _ => true

end Answer

/-- Adapters that were asked, and what came of it, the first first. -/
abbrev Answers := List (String × Answer)

namespace Answers

def names (vs : Answers) : List String := vs.map Prod.fst

/-- Whether the adapter under a name has passed. -/
def passes (vs : Answers) (name : String) : Bool := (vs.lookup name).any Answer.isPassed

/-- The failure of the adapter that lacks the operation. -/
def lacking? (vs : Answers) : Option Failure := vs.findSome? fun v => v.2.lacking?

end Answers

namespace World

/-- The event that the adapter under a name has failed. -/
def complaint? (w : World) (v : String × Answer) : Option Event :=
  match v.2 with
  | .failed cause => some (.verifyFailed (w.idOf v.1) cause)
  | _ => none

/-- The event that a task is dropped. -/
def dropping (w : World) (t : Task) : Event := .taskDropped t.rule (w.idOf t.adapter)

/-- The world after some events were told. -/
def tell (w : World) (es : List Event) : World := es.foldl emit w

/-- Asks the adapter under a name to verify itself, and tells if it fails. -/
def ask (w : World) (name : String) : Answer × World :=
  let r := (at_ name Station.verify).outcome w
  (.of r.1, r.2.tell (w.complaint? (name, .of r.1)).toList)

/-- Asks adapters one after the other, up to the first that lacks the operation. -/
def askEach (w : World) : List String → Answers × World
  | [] => ([], w)
  | name :: names =>
    let r := w.ask name
    if r.1.lacking?.isSome then ([(name, r.1)], r.2)
    else ((name, r.1) :: (r.2.askEach names).1, (r.2.askEach names).2)

end World

/-! ### Asking

Asking an adapter lets the world move on, counts as a verification of that adapter, and changes
nothing else that a post looks at. -/

namespace World

variable {w w' w'' : World} {names names' : List String} {name : String}

/-- How often the adapter under a name was verified, as far as it counts. -/
def verifyCalls (w : World) (name : String) : Nat :=
  ((w.adapters.lookup name).map Adapter.verifyCalls).getD 0

theorem verifyCalls_of {a : Adapter} (h : w.adapters.lookup name = some a) :
    w.verifyCalls name = a.verifyCalls := by
  rw [verifyCalls, h]
  rfl

/-- Adapters were verified, each as often as it is named. -/
structure Asked (names : List String) (w w' : World) : Prop where
  adapters : ∀ name, w'.adapters.lookup name =
    (w.adapters.lookup name).map (Adapter.withCalls (w.verifyCalls name + names.count name))
  files : w'.site.files = w.site.files
  lines : w'.site.network.lines = w.site.network.lines

namespace Asked

theorem trans (h : Asked names w w') (h' : Asked names' w' w'') :
    Asked (names ++ names') w w'' := by
  refine ⟨fun name => ?_, h'.files.trans h.files, h'.lines.trans h.lines⟩
  have hcalls := h.adapters name
  rw [h'.adapters, verifyCalls, hcalls, List.count_append]
  cases hl : w.adapters.lookup name with
  | none => rfl
  | some a =>
    rw [verifyCalls_of hl]
    cases a with
    | recorder r =>
      simp only [Option.map_some, Adapter.withCalls, Adapter.verifyCalls, Recorder.withCalls,
        Option.getD_some, Nat.add_assoc]
    | dummy d => rfl
    | telegram t => rfl
    | bare b => rfl

end Asked

theorem leads_tell (w : World) (es : List Event) : w.Leads [] es (w.tell es) := by
  induction es generalizing w with
  | nil => exact .refl w
  | cons e es ih => exact (leads_emit w e).trans (ih (w.emit e))

theorem complaint?_congr (h : ∀ name, w'.adapterId name = w.adapterId name) :
    w'.complaint? = w.complaint? := by
  funext a
  simp only [complaint?, idOf, h]

theorem dropping_congr (h : ∀ name, w'.adapterId name = w.adapterId name) :
    w'.dropping = w.dropping := by
  funext t
  simp only [dropping, idOf, h]

theorem ask_leads (w : World) (name : String) :
    w.Leads [] (w.complaint? (name, (w.ask name).1)).toList (w.ask name).2 :=
  (leads_verify w name).trans (leads_tell _ _)

theorem askEach_cons (w : World) (name : String) (names : List String) :
    w.askEach (name :: names) = if (w.ask name).1.lacking?.isSome then
      ([(name, (w.ask name).1)], (w.ask name).2)
    else ((name, (w.ask name).1) :: ((w.ask name).2.askEach names).1,
      ((w.ask name).2.askEach names).2) := rfl

theorem askEach_leads (w : World) (names : List String) :
    w.Leads [] ((w.askEach names).1.filterMap w.complaint?) (w.askEach names).2 := by
  induction names generalizing w with
  | nil => exact .refl w
  | cons name names ih =>
    have hask := w.ask_leads name
    have hrest := ih (w.ask name).2
    rw [complaint?_congr hask.ids] at hrest
    have hcons : ∀ as : Answers, ((name, (w.ask name).1) :: as).filterMap w.complaint? =
        (w.complaint? (name, (w.ask name).1)).toList ++ as.filterMap w.complaint? := fun as => by
      rw [List.filterMap_cons]
      cases w.complaint? (name, (w.ask name).1) <;> rfl
    rw [askEach_cons]
    split
    · rw [hcons, List.filterMap_nil, List.append_nil]
      exact hask
    · rw [hcons]
      exact hask.trans hrest

/-- If none lacks the operation, all are asked. -/
theorem askEach_names (h : (w.askEach names).1.lacking? = none) :
    (w.askEach names).1.names = names := by
  induction names generalizing w with
  | nil => rfl
  | cons name names ih =>
    rw [askEach_cons] at h ⊢
    split at h
    · rename_i hlacking
      obtain ⟨f, hf⟩ := Option.isSome_iff_exists.1 hlacking
      simp [Answers.lacking?, hf] at h
    · rename_i hlacking
      rw [if_neg hlacking]
      have hrest : ((w.ask name).2.askEach names).1.lacking? = none := by
        simp only [Answers.lacking?, List.findSome?_cons] at h ⊢
        split at h
        · cases h
        · exact h
      exact congrArg (name :: ·) (ih hrest)

end World

/-! ### Keeping what was found

The gate keeps what came of asking, so that no adapter is asked twice. -/

namespace Answers

/-- What the gate keeps of answers. -/
def checks (as : Answers) : Session.Checks := as.map fun a => (a.1, a.2.isPassed)

theorem lookup_checks (as : Answers) (name : String) :
    as.checks.lookup name = (as.lookup name).map Answer.isPassed := by
  induction as with
  | nil => rfl
  | cons a as ih =>
    obtain ⟨other, answer⟩ := a
    rw [List.lookup_cons]
    show List.lookup name ((other, answer.isPassed) :: checks as) = _
    rw [List.lookup_cons, ih]
    cases name == other <;> rfl

theorem lookup_isSome {as : Answers} {name : String} (h : name ∈ as.names) :
    (as.lookup name).isSome = true := by
  obtain ⟨a, ha, rfl⟩ := List.mem_map.1 h
  cases hl : as.lookup a.1 with
  | some => rfl
  | none =>
    rw [List.lookup_eq_none_iff] at hl
    have hne := hl a ha
    simp at hne

end Answers

/-- The adapters of a batch, each once, in the order in which the tasks come to them. -/
def adaptersOf (ts : List Task) : List String := (ts.map Task.adapter).eraseDups

/-- The adapters of a batch that were not asked so far. -/
def unasked (as : Answers) (ts : List Task) : List String :=
  ((ts.map Task.adapter).filter fun name => (as.lookup name).isNone).eraseDups

section Unasked

variable {as : Answers} {t : Task} {ts : List Task}

theorem unasked_nil (ts : List Task) : unasked [] ts = adaptersOf ts := by
  have hall : ∀ name : String, (List.lookup name ([] : Answers)).isNone = true := fun _ => rfl
  simp only [unasked, hall, List.filter_true, adaptersOf]

theorem unasked_cons_known (h : (as.lookup t.adapter).isSome = true) :
    unasked as (t :: ts) = unasked as ts := by
  rw [unasked, List.map_cons, List.filter_cons_of_neg (by simpa using h)]
  rfl

theorem unasked_cons_new (h : as.lookup t.adapter = none) (answer : Answer) :
    unasked as (t :: ts) = t.adapter :: unasked (as ++ [(t.adapter, answer)]) ts := by
  rw [unasked, List.map_cons, List.filter_cons_of_pos (by rw [h]; rfl), List.eraseDups_cons,
    List.filter_filter, unasked]
  congr 3
  funext name
  rw [List.lookup_append, List.lookup_cons]
  cases name == t.adapter <;> cases as.lookup name <;> rfl

end Unasked

namespace Session

variable {s : Session} {name : String} {t : Task} {ts : List Task} {checks : Checks} {as : Answers}

theorem outcome_verdictOf (s : Session) (name : String) :
    let r := (World.at_ name Station.verify).outcome s.world
    (verdictOf name).outcome s = match Answer.of r.1 with
      | .passed => (.ok none, s.setWorld r.2)
      | .failed cause => (.ok (some cause), s.setWorld r.2)
      | .lacking f => (.error f, s.setWorld r.2) := by
  simp only [Act.outcome, verdictOf, inWorld, Act.within, EStateM.run]
  cases World.at_ name Station.verify s.world with
  | ok v w => cases ht : v.truthy <;> simp [Answer.of, ht]
  | error f w => cases hf : f.isNotImplemented <;> simp [Answer.of, hf]

theorem idOf_eq {w : World} {id : Value} (h : w.adapterId name = .ok id) : w.idOf name = id := by
  rw [World.idOf, h]
  rfl

/-- An event about an adapter, with its id, is told before what comes next. -/
theorem outcome_tell {β : Type} (e : Value → Event) (next : Act Session β)
    (hid : ∃ id, s.world.adapterId name = .ok id ∧ (e id).isShowable = true) :
    (do emit (e (← adapterId name)); next : Act Session β).outcome s =
      next.outcome (s.setWorld (s.world.emit (e (s.world.idOf name)))) := by
  obtain ⟨id, hid, hshown⟩ := hid
  have hadapter := outcome_adapterId s name
  rw [hid] at hadapter
  have hemit := outcome_emit s (e id)
  rw [if_pos hshown] at hemit
  rw [Act.outcome_bind_ok hadapter, Act.outcome_bind_ok hemit, idOf_eq hid]

/-- What was found of an adapter stands. -/
theorem check_known {passed : Bool} (h : checks.lookup name = some passed) :
    (check checks name).outcome s = (.ok (passed, checks), s) := by
  rw [check, h]
  rfl

/-- An adapter that was not asked so far is asked. -/
theorem check_new (h : checks.lookup name = none)
    (hid : ∃ id, s.world.adapterId name = .ok id ∧ id.isShowable = true)
    (hshow : (s.world.ask name).1.isShowable = true) :
    (check checks name).outcome s = match (s.world.ask name).1.lacking? with
      | some f => (.error f, s.setWorld (s.world.ask name).2)
      | none => (.ok ((s.world.ask name).1.isPassed,
          checks ++ [(name, (s.world.ask name).1.isPassed)]), s.setWorld (s.world.ask name).2) := by
  have hverdict := outcome_verdictOf s name
  have hids := (World.leads_verify s.world name).ids
  simp only [World.ask] at hshow ⊢
  rw [check, h]
  generalize (World.at_ name Station.verify).outcome s.world = r at hverdict hids hshow ⊢
  obtain ⟨o, w⟩ := r
  dsimp only at hverdict hids hshow ⊢
  cases hanswer : Answer.of o with
  | passed =>
    rw [hanswer] at hverdict
    exact Act.outcome_bind_ok hverdict
  | lacking f =>
    rw [hanswer] at hverdict
    exact Act.outcome_bind_error hverdict
  | failed cause =>
    rw [hanswer] at hverdict hshow
    obtain ⟨id, hid, hshown⟩ := hid
    have hw : (s.setWorld w).world.adapterId name = .ok id := (hids name).trans hid
    have hevent : (Event.verifyFailed id cause).isShowable = true := by
      simp only [Event.isShowable, hshown, Bool.true_and]
      exact hshow
    rw [Act.outcome_bind_ok hverdict]
    dsimp only
    rw [outcome_tell (.verifyFailed · cause) _ ⟨id, hw, hevent⟩, idOf_eq hw]
    simp only [World.complaint?, idOf_eq hid, Answer.lacking?, Answer.isPassed]
    rfl

theorem checkAll_eq (hr : ∀ t ∈ ts, s.world.Reportable t)
    (hshow : ∀ a ∈ (s.world.askEach (unasked as ts)).1, a.2.isShowable = true) :
    (checkAll as.checks ts).outcome s =
      match (s.world.askEach (unasked as ts)).1.lacking? with
      | some f => (.error f, s.setWorld (s.world.askEach (unasked as ts)).2)
      | none => (.ok (as ++ (s.world.askEach (unasked as ts)).1).checks,
          s.setWorld (s.world.askEach (unasked as ts)).2) := by
  -- What was asked so far grows with the tasks that were gone through, and so do the checks.
  induction ts generalizing s as with
  | nil =>
    show ((.ok as.checks : Outcome Checks), s) = (.ok (Answers.checks (as ++ [])), s)
    rw [List.append_nil]
  | cons t ts ih =>
    obtain ⟨ht, hr⟩ := List.forall_mem_cons.1 hr
    rw [checkAll]
    cases hl : as.lookup t.adapter with
    | some answer =>
      have hknown : as.checks.lookup t.adapter = some answer.isPassed := by
        rw [as.lookup_checks, hl]
        rfl
      rw [unasked_cons_known (by rw [hl]; rfl)] at hshow ⊢
      rw [Act.outcome_bind_ok (check_known hknown)]
      exact ih hr hshow
    | none =>
      have hnew : as.checks.lookup t.adapter = none := by
        rw [as.lookup_checks, hl]
        rfl
      rw [unasked_cons_new hl (s.world.ask t.adapter).1, World.askEach_cons] at hshow ⊢
      cases hlacking : (s.world.ask t.adapter).1.lacking? with
      | some f =>
        simp only [hlacking, Option.isSome_some, ↓reduceIte, List.mem_singleton, forall_eq,
          Answers.lacking?, List.findSome?_cons] at hshow ⊢
        have hcheck := check_new hnew ht.id hshow
        rw [hlacking] at hcheck
        exact Act.outcome_bind_error hcheck
      | none =>
        simp only [hlacking, Option.isSome_none, Bool.false_eq_true, ↓reduceIte,
          List.forall_mem_cons] at hshow ⊢
        obtain ⟨hshown, hshow⟩ := hshow
        have hcheck := check_new hnew ht.id hshown
        rw [hlacking] at hcheck
        have hrest := ih (s := s.setWorld (s.world.ask t.adapter).2)
          (fun u hu => (World.reportable_congr (s.world.ask_leads _).ids u).2 (hr u hu)) hshow
        rw [Act.outcome_bind_ok hcheck]
        simp only [Answers.lacking?, List.findSome?_cons, hlacking]
        have hchecks : (as ++ [(t.adapter, (s.world.ask t.adapter).1)]).checks =
            as.checks ++ [(t.adapter, (s.world.ask t.adapter).1.isPassed)] := List.map_append
        rw [hchecks, List.append_assoc] at hrest
        exact hrest

theorem survivors_eq (hr : ∀ t ∈ ts, s.world.Reportable t)
    (hall : ∀ t ∈ ts, (as.lookup t.adapter).isSome = true) :
    (survivors as.checks ts).outcome s = (.ok (ts.filter fun t => as.passes t.adapter),
      s.setWorld (s.world.tell
        ((ts.filter fun t => !as.passes t.adapter).map s.world.dropping))) := by
  induction ts generalizing s with
  | nil => rfl
  | cons t ts ih =>
    obtain ⟨ht, hr⟩ := List.forall_mem_cons.1 hr
    obtain ⟨hknown, hall⟩ := List.forall_mem_cons.1 hall
    have hcheck : (check as.checks t.adapter).outcome s =
        (.ok (as.passes t.adapter, as.checks), s) := by
      apply check_known
      rw [as.lookup_checks, Answers.passes]
      cases hl : as.lookup t.adapter with
      | none => rw [hl] at hknown; cases hknown
      | some answer => rfl
    rw [survivors, Act.outcome_bind_ok hcheck]
    cases hp : as.passes t.adapter with
    | true =>
      simp only [List.filter_cons, hp, Bool.not_true, Bool.false_eq_true, ↓reduceIte]
      exact Act.outcome_bind_ok (ih hr hall)
    | false =>
      obtain ⟨id, hid, hshown⟩ := ht.id
      have hevent : (Event.taskDropped t.rule id).isShowable = true := by
        simp [Event.isShowable, ht.rule, hshown]
      have hleads := World.leads_emit s.world (s.world.dropping t)
      have hrest := ih (s := s.setWorld (s.world.emit (s.world.dropping t)))
        (fun u hu => (World.reportable_congr hleads.ids u).2 (hr u hu)) hall
      have hdropping : (s.setWorld (s.world.emit (s.world.dropping t))).world.dropping =
          s.world.dropping := World.dropping_congr hleads.ids
      rw [hdropping] at hrest
      simp only [List.filter_cons, hp, Bool.not_false, Bool.false_eq_true, ↓reduceIte]
      rw [outcome_tell (.taskDropped t.rule ·) _ ⟨id, hid, hevent⟩]
      exact hrest

/-- The gate asks every adapter of a batch once, and then drops the tasks of those that failed. -/
theorem gate_eq (hr : ∀ t ∈ ts, s.world.Reportable t)
    (hshow : ∀ a ∈ (s.world.askEach (adaptersOf ts)).1, a.2.isShowable = true) :
    let r := s.world.askEach (adaptersOf ts)
    (gate ts).outcome s = match r.1.lacking? with
      | some f => (.error f, s.setWorld r.2)
      | none => (.ok (ts.filter fun t => r.1.passes t.adapter), s.setWorld (r.2.tell
          ((ts.filter fun t => !r.1.passes t.adapter).map s.world.dropping))) := by
  rw [← unasked_nil] at hshow ⊢
  have hcheck := checkAll_eq hr hshow
  have hleads := s.world.askEach_leads (unasked [] ts)
  intro r
  cases hlacking : r.1.lacking? with
  | some f =>
    rw [hlacking] at hcheck
    exact Act.outcome_bind_error hcheck
  | none =>
    rw [hlacking, List.nil_append] at hcheck
    have hasked : ∀ t ∈ ts, (r.1.lookup t.adapter).isSome = true := fun t ht => by
      apply Answers.lookup_isSome
      rw [World.askEach_names hlacking, unasked_nil, adaptersOf, List.mem_eraseDups]
      exact List.mem_map_of_mem ht
    have hsurvivors := survivors_eq (s := s.setWorld r.2)
      (fun t ht => (World.reportable_congr hleads.ids t).2 (hr t ht)) hasked
    have hdropping : (s.setWorld r.2).world.dropping = s.world.dropping :=
      World.dropping_congr hleads.ids
    rw [hdropping] at hsurvivors
    exact (Act.outcome_bind_ok hcheck).trans hsurvivors

end Session

end Syndicate

import Marty.Lib.Pool
import Marty.Lib.Run

/-! Tasks with a context variable.  Each task has a value of its own, which a task that it starts
inherits; a scope puts back the value it found, however its body ends.  `Prog.eval` says what one
task does by itself, `step` lets the tasks take turns. -/

universe u v

namespace Lib.ContextVar

open Run Pool

inductive Prog (α : Type u) (β : Type v) : Type (max u v)
  | done
  | raise
  | log (entry : β) (rest : Prog α β)
  | modify (f : α → α) (rest : Prog α β)
  | scope (f : α → α) (body rest : Prog α β)
  | attempt (body handler rest : Prog α β)
  | spawn (child rest : Prog α β)

/-- A program and the value it starts from. -/
abbrev Start (α : Type u) (β : Type v) := Prog α β × α

structure Outcome (α : Type u) (β : Type v) where
  logged : List (β × α) := []
  spawned : List (Start α β) := []
  value : α
  raised : Bool := false

namespace Outcome

variable {α : Type u} {β : Type v}

/-- The outcome of what comes after these records and tasks. -/
def after (logged : List (β × α)) (spawned : List (Start α β)) (o : Outcome α β) : Outcome α β :=
  { o with logged := logged ++ o.logged, spawned := spawned ++ o.spawned }

def next (o : Outcome α β) (k : α → Outcome α β) : Outcome α β :=
  if o.raised then o else (k o.value).after o.logged o.spawned

def rescue (o : Outcome α β) (k : α → Outcome α β) : Outcome α β :=
  if o.raised then (k o.value).after o.logged o.spawned else o

def restore (saved : α) (o : Outcome α β) : Outcome α β := { o with value := saved }

variable (logged logged' : List (β × α)) (spawned spawned' : List (Start α β)) (o : Outcome α β)

@[simp] theorem after_raised : (o.after logged spawned).raised = o.raised := rfl

@[simp] theorem after_value : (o.after logged spawned).value = o.value := rfl

theorem after_after : (o.after logged spawned).after logged' spawned' =
    o.after (logged' ++ logged) (spawned' ++ spawned) := by
  simp [after]

theorem next_after (k : α → Outcome α β) :
    (o.after logged spawned).next k = (o.next k).after logged spawned := by
  cases hraised : o.raised with
  | true => simp [next, hraised]
  | false => simp [next, hraised, after]

theorem rescue_after (k : α → Outcome α β) :
    (o.after logged spawned).rescue k = (o.rescue k).after logged spawned := by
  cases hraised : o.raised with
  | true => simp [rescue, hraised, after]
  | false => simp [rescue, hraised]

theorem restore_after (saved : α) :
    (o.after logged spawned).restore saved = (o.restore saved).after logged spawned := rfl

/-- An empty outcome that has not raised, and one that has. -/
@[simp] theorem next_of_value (v : α) (k : α → Outcome α β) : next { value := v } k = k v := by
  simp [next, after]

@[simp] theorem rescue_of_value (v : α) (k : α → Outcome α β) :
    rescue { value := v } k = { value := v } := rfl

@[simp] theorem next_of_raised (v : α) (k : α → Outcome α β) :
    next { value := v, raised := true } k = { value := v, raised := true } := rfl

@[simp] theorem rescue_of_raised (v : α) (k : α → Outcome α β) :
    rescue { value := v, raised := true } k = k v := by
  simp [rescue, after]

end Outcome

section semantics

variable {α : Type u} {β : Type v}

def Prog.eval : Prog α β → α → Outcome α β
  | .done, v => { value := v }
  | .raise, v => { value := v, raised := true }
  | .log entry rest, v => (rest.eval v).after [(entry, v)] []
  | .modify f rest, v => rest.eval (f v)
  | .scope f body rest, v => ((body.eval (f v)).restore v).next rest.eval
  | .attempt body handler rest, v => ((body.eval v).rescue handler.eval).next rest.eval
  | .spawn child rest, v => (rest.eval v).after [] [(child, v)]

/-- What is left to do when the program at hand has ended. -/
inductive Frame (α : Type u) (β : Type v) : Type (max u v)
  | restore (saved : α) (rest : Prog α β)
  | rescue (handler rest : Prog α β)
  | next (rest : Prog α β)

def Frame.resume : Frame α β → Outcome α β → Outcome α β
  | .restore saved rest, o => (o.restore saved).next rest.eval
  | .rescue handler rest, o => (o.rescue handler.eval).next rest.eval
  | .next rest, o => o.next rest.eval

def resume (frames : List (Frame α β)) (o : Outcome α β) : Outcome α β :=
  frames.foldl (fun o frame => frame.resume o) o

/-- A task: where it stands, and what it has written and started so far. -/
structure Task (α : Type u) (β : Type v) where
  root : ℕ
  /-- The numbers of the tasks it descends from, each among those that its parent started. -/
  path : List ℕ
  start : Start α β
  prog : Prog α β
  value : α
  frames : List (Frame α β) := []
  logged : List (β × α) := []
  spawned : List (Start α β) := []

def Task.begin (root : ℕ) (path : List ℕ) (start : Start α β) : Task α β where
  root := root
  path := path
  start := start
  prog := start.1
  value := start.2

/-- One step, with the task it starts.  `none` when the task has ended. -/
def Task.step (t : Task α β) : Option (Task α β × Option (Task α β)) :=
  match t.prog with
  | .done =>
    match t.frames with
    | [] => none
    | .restore saved rest :: frames =>
      some ({ t with prog := rest, value := saved, frames := frames }, none)
    | .rescue _ rest :: frames => some ({ t with prog := rest, frames := frames }, none)
    | .next rest :: frames => some ({ t with prog := rest, frames := frames }, none)
  | .raise =>
    match t.frames with
    | [] => none
    | .restore saved _ :: frames => some ({ t with value := saved, frames := frames }, none)
    | .rescue handler rest :: frames =>
      some ({ t with prog := handler, frames := .next rest :: frames }, none)
    | .next _ :: frames => some ({ t with frames := frames }, none)
  | .log entry rest =>
    some ({ t with prog := rest, logged := t.logged ++ [(entry, t.value)] }, none)
  | .modify f rest => some ({ t with prog := rest, value := f t.value }, none)
  | .scope f body rest =>
    some ({ t with
      prog := body
      value := f t.value
      frames := .restore t.value rest :: t.frames }, none)
  | .attempt body handler rest =>
    some ({ t with prog := body, frames := .rescue handler rest :: t.frames }, none)
  | .spawn child rest =>
    some ({ t with prog := rest, spawned := t.spawned ++ [(child, t.value)] },
      some (.begin t.root (t.path ++ [t.spawned.length]) (child, t.value)))

/-- The task with this number moves. -/
def step (tasks : List (Task α β)) (i : ℕ) : Option (List (Task α β)) :=
  tasks[i]?.bind fun t => t.step.map fun r => tasks.set i r.1 ++ r.2.toList

def initial (roots : List (Start α β)) : List (Task α β) :=
  roots.mapIdx fun i start => .begin i [] start

/-- The start of the descendant with this path, by what each program does by itself. -/
def descend (start : Start α β) : List ℕ → Option (Start α β)
  | [] => some start
  | n :: path => (start.1.eval start.2).spawned[n]?.bind fun child => descend child path

end semantics

variable {α : Type u} {β : Type v}

theorem Frame.resume_after (frame : Frame α β) (logged : List (β × α))
    (spawned : List (Start α β)) (o : Outcome α β) :
    frame.resume (o.after logged spawned) = (frame.resume o).after logged spawned := by
  cases frame with
  | restore saved rest =>
    rw [Frame.resume, Outcome.restore_after, Outcome.next_after, Frame.resume]
  | rescue handler rest =>
    rw [Frame.resume, Outcome.rescue_after, Outcome.next_after, Frame.resume]
  | next rest => rw [Frame.resume, Outcome.next_after, Frame.resume]

theorem resume_after (frames : List (Frame α β)) (logged : List (β × α))
    (spawned : List (Start α β)) (o : Outcome α β) :
    resume frames (o.after logged spawned) = (resume frames o).after logged spawned := by
  induction frames generalizing o with
  | nil => rfl
  | cons frame frames ih =>
    change resume frames (frame.resume _) = (resume frames (frame.resume o)).after logged spawned
    rw [frame.resume_after, ih]

/-- What the task will have done, from where it stands. -/
def Task.outcome (t : Task α β) : Outcome α β :=
  (resume t.frames (t.prog.eval t.value)).after t.logged t.spawned

theorem resume_cons (frame : Frame α β) (frames : List (Frame α β)) (o : Outcome α β) :
    resume (frame :: frames) o = resume frames (frame.resume o) := rfl

/-- A step of a task keeps what it will have done. -/
theorem Task.outcome_step {t t' : Task α β} {child : Option (Task α β)}
    (h : t.step = some (t', child)) : t'.outcome = t.outcome := by
  obtain ⟨root, path, start, prog, value, frames, logged, spawned⟩ := t
  cases prog with
  | done =>
    cases frames with
    | nil => cases h
    | cons frame frames =>
      cases frame <;> obtain ⟨rfl, rfl⟩ := Prod.mk.inj (Option.some.inj h) <;>
        simp [Task.outcome, resume_cons, Frame.resume, Prog.eval, Outcome.restore]
  | raise =>
    cases frames with
    | nil => cases h
    | cons frame frames =>
      cases frame <;> obtain ⟨rfl, rfl⟩ := Prod.mk.inj (Option.some.inj h) <;>
        simp [Task.outcome, resume_cons, Frame.resume, Prog.eval, Outcome.restore]
  | log entry rest =>
    obtain ⟨rfl, rfl⟩ := Prod.mk.inj (Option.some.inj h)
    simp [Task.outcome, Prog.eval, resume_after, Outcome.after_after]
  | modify f rest =>
    obtain ⟨rfl, rfl⟩ := Prod.mk.inj (Option.some.inj h)
    rfl
  | scope f body rest =>
    obtain ⟨rfl, rfl⟩ := Prod.mk.inj (Option.some.inj h)
    rfl
  | attempt body handler rest =>
    obtain ⟨rfl, rfl⟩ := Prod.mk.inj (Option.some.inj h)
    rfl
  | spawn child rest =>
    obtain ⟨rfl, rfl⟩ := Prod.mk.inj (Option.some.inj h)
    simp [Task.outcome, Prog.eval, resume_after, Outcome.after_after]

theorem Task.step_frame {t t' : Task α β} {child : Option (Task α β)}
    (h : t.step = some (t', child)) :
    t'.root = t.root ∧ t'.path = t.path ∧ t'.start = t.start := by
  unfold Task.step at h
  split at h
  case h_1 | h_2 =>
    split at h
    case h_1 => cases h
    all_goals exact ⟨by cases h; rfl, by cases h; rfl, by cases h; rfl⟩
  all_goals exact ⟨by cases h; rfl, by cases h; rfl, by cases h; rfl⟩

/-- A task that is started comes next among those of its parent. -/
theorem Task.step_child {t t' child : Task α β} (h : t.step = some (t', some child)) :
    ∃ start, child = .begin t.root (t.path ++ [t.spawned.length]) start ∧
      t'.spawned = t.spawned ++ [start] := by
  unfold Task.step at h
  split at h
  case h_1 | h_2 =>
    split at h
    all_goals cases h
  case h_7 => cases h; exact ⟨_, rfl, rfl⟩
  all_goals cases h

theorem descend_append (start : Start α β) (path : List ℕ) (n : ℕ) :
    descend start (path ++ [n]) =
      (descend start path).bind fun last => (last.1.eval last.2).spawned[n]? := by
  induction path generalizing start with
  | nil => simp [descend]
  | cons m path ih => simp [descend, ih, Option.bind_assoc]

/-- The task does what its program does by itself, from the value that its parent had. -/
structure Faithful (roots : List (Start α β)) (t : Task α β) : Prop where
  outcome : t.outcome = t.start.1.eval t.start.2
  start : (roots[t.root]?).bind (descend · t.path) = some t.start

variable {roots : List (Start α β)} {tasks tasks' : List (Task α β)}

theorem Faithful.step {t t' : Task α β} {child : Option (Task α β)} (ht : Faithful roots t)
    (h : t.step = some (t', child)) : Faithful roots t' := by
  obtain ⟨hroot, hpath, hstart⟩ := Task.step_frame h
  refine ⟨?_, ?_⟩
  · rw [Task.outcome_step h, hstart]
    exact ht.outcome
  · rw [hroot, hpath, hstart]
    exact ht.start

theorem Faithful.child {t t' child : Task α β} (ht : Faithful roots t)
    (h : t.step = some (t', some child)) : Faithful roots child := by
  obtain ⟨start, rfl, hspawned⟩ := Task.step_child h
  have houtcome : t'.outcome = t.start.1.eval t.start.2 := (Task.outcome_step h).trans ht.outcome
  refine ⟨rfl, ?_⟩
  obtain ⟨root, hroot, hdescend⟩ := Option.bind_eq_some_iff.mp ht.start
  have hlast : (t.start.1.eval t.start.2).spawned[t.spawned.length]? = some start := by
    rw [← houtcome, Task.outcome, Outcome.after, hspawned]
    simp
  simp [Task.begin, hroot, descend_append, hdescend, hlast]

theorem faithful_step {i : ℕ} (hs : ∀ t ∈ tasks, Faithful roots t)
    (h : step tasks i = some tasks') : ∀ t ∈ tasks', Faithful roots t := by
  obtain ⟨t, ht, h⟩ := Option.bind_eq_some_iff.mp h
  obtain ⟨⟨t', child⟩, hstep, rfl⟩ := Option.map_eq_some_iff.mp h
  have ht := hs t (List.mem_of_getElem? ht)
  intro u hu
  rcases List.mem_append.mp hu with hu | hu
  · rcases List.mem_or_eq_of_mem_set hu with hu | rfl
    · exact hs u hu
    · exact ht.step hstep
  · obtain rfl := Option.mem_toList.mp hu
    exact ht.child hstep

theorem faithful_of_run {schedule : List ℕ} (h : run step (initial roots) schedule = some tasks) :
    ∀ t ∈ tasks, Faithful roots t := by
  refine run_preserves (fun _ _ _ => faithful_step) ?_ h
  intro t ht
  obtain ⟨i, hi, rfl⟩ := List.mem_mapIdx.mp ht
  exact ⟨rfl, by simp [Task.begin, descend, hi]⟩

theorem Task.outcome_of_ended {t : Task α β} (h : t.step = none) :
    t.outcome.logged = t.logged := by
  obtain ⟨root, path, start, prog, value, frames, logged, spawned⟩ := t
  cases prog with
  | done | raise =>
    cases frames with
    | nil => simp [Task.outcome, Prog.eval, resume, Outcome.after]
    | cons frame frames => cases frame <;> cases h
  | _ => cases h

/-- Whatever the order of the steps, a task has written a first part of what its program writes by
itself, and all of it when the task has ended. -/
theorem Faithful.logged {t : Task α β} (ht : Faithful roots t) :
    t.logged <+: (t.start.1.eval t.start.2).logged ∧
      (t.step = none → t.logged = (t.start.1.eval t.start.2).logged) := by
  rw [← ht.outcome]
  exact ⟨List.prefix_append .., fun h => (Task.outcome_of_ended h).symm⟩

end Lib.ContextVar

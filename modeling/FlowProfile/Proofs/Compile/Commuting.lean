/-
# Work on different names commutes

Functions are compiled, and what comes out is run, in some order.  If none of them adds to
counters of its own and the host answers by the arguments alone, nothing done under one
name can be noticed under another.  So the order matters only among the tasks of one name:
any two orders that agree on that give every task the same answer, and leave stores that
report the same text.

Under each name the work is compared with the same work done alone.  A task of that name
finds the two workshops alike and leaves them alike, and a task of another name leaves the
workshop like itself.
-/

import FlowProfile.Proofs.Compile.Isolation
import FlowProfile.Proofs.Store.Likeness

namespace FlowProfile

/-- A piece of work: to compile a function, or to run what a compilation has left.  The
compilations under a name are counted from the first. -/
inductive Task
  | compile (f : Func)
  | run (function : String) (index limit : Nat) (args : List Int64)

namespace Task

/-- The name under which a task is done. -/
def name : Task → String
  | .compile f => f.name
  | .run function .. => function

/-- The task brings in no function that adds to counters. -/
def IsSilent : Task → Prop
  | .compile f => f.counters = []
  | .run .. => True

end Task

/-- The functions that an answer hands out. -/
def Answer.funcs : Answer → List Func
  | .compiled compilation => [compilation.func]
  | _ => []

/-- A session, and the functions that the compilations so far have left, in their order. -/
structure Workshop where
  session : Session
  code : List Func

namespace Workshop

/-- What the compilations under a name have left. -/
def codeOf (shop : Workshop) (function : String) : List Func :=
  shop.code.filter (·.name = function)

/-- Do one task. -/
def perform (pipeline : Pipeline) (shop : Workshop) : Task → Workshop × Answer
  | .compile f =>
      let (session, answer) := shop.session.perform (.compile pipeline f)
      (⟨session, shop.code ++ answer.funcs⟩, answer)
  | .run function index limit args =>
      match (shop.codeOf function)[index]? with
      | none => (shop, .absent)
      | some g =>
          let (session, answer) := shop.session.perform (.run g limit args)
          ({ shop with session }, answer)

/-- The workshop after tasks in a row. -/
def work (pipeline : Pipeline) (shop : Workshop) (tasks : List Task) : Workshop :=
  tasks.foldl (fun shop task => (shop.perform pipeline task).1) shop

/-- Tasks in a row, each with its answer. -/
def transcript (pipeline : Pipeline) : Workshop → List Task → List (Task × Answer)
  | _, [] => []
  | shop, task :: rest =>
      (task, (shop.perform pipeline task).2) ::
        transcript pipeline (shop.perform pipeline task).1 rest

/-- All code adds to counters of its own name only. -/
def Tidy (shop : Workshop) : Prop :=
  ∀ g ∈ shop.code, g.CountsOnly (·.BelongsTo shop.session.store.name g.name)

/-- Two workshops cannot be told apart by tasks of one name. -/
structure Alike (answers : Callee → Option (List Int64 → Int64)) (function : String)
    (shop shop' : Workshop) : Prop where
  held : shop.session.store.Alike function shop.session.world.counters shop'.session.store
    shop'.session.world.counters
  code_eq : shop'.codeOf function = shop.codeOf function
  serves : shop.session.world.host.Serves answers
  serves' : shop'.session.world.host.Serves answers

variable {answers : Callee → Option (List Int64 → Int64)} {function : String}
  {shop shop' : Workshop} {pipeline : Pipeline} {task : Task}

namespace Alike

theorem refl (function : String) (serves : shop.session.world.host.Serves answers) :
    shop.Alike answers function shop :=
  ⟨.refl .., rfl, serves, serves⟩

theorem symm (alike : shop.Alike answers function shop') : shop'.Alike answers function shop :=
  ⟨alike.held.symm, alike.code_eq.symm, alike.serves', alike.serves⟩

theorem trans {shop'' : Workshop} (first : shop.Alike answers function shop')
    (second : shop'.Alike answers function shop'') : shop.Alike answers function shop'' :=
  ⟨first.held.trans second.held, second.code_eq.trans first.code_eq, first.serves,
    second.serves'⟩

end Alike

/-! ## One task -/

/-- What compiling a function does to a workshop. -/
theorem perform_compile {f : Func} {after : Store} {compilation : Compilation}
    (compiled : pipeline.compile shop.session.world.counters (some shop.session.store) f =
      (some after, compilation)) :
    shop.perform pipeline (.compile f) =
      (⟨{ shop.session with store := after }, shop.code ++ [compilation.func]⟩,
        .compiled compilation) := by
  rw [perform, Session.perform, compiled]
  rfl

/-- Compiled code, if the function had no counters, adds to those of its name alone. -/
theorem countsOnly_of_isSilent (harmless : pipeline.optimizer.Harmless) {f : Func}
    (silent : f.counters = []) {counters : Counters} {store : Store} {after : Option Store}
    {compilation : Compilation}
    (compiled : pipeline.compile counters (some store) f = (after, compilation)) :
    compilation.func.CountsOnly (·.BelongsTo store.name f.name) ∧
      compilation.func.name = f.name := by
  refine Pipeline.countsOnly_compile harmless compiled ?_ fun _ _ measure _ => ⟨measure, rfl⟩
  rw [Func.CountsOnly, silent]
  exact nofun

theorem name_of_mem_codeOf {g : Func} (mem : g ∈ shop.codeOf function) :
    g ∈ shop.code ∧ g.name = function := by
  obtain ⟨listed, same⟩ := List.mem_filter.mp mem
  exact ⟨listed, of_decide_eq_true same⟩

/-- A task keeps the workshop tidy. -/
theorem Tidy.perform (harmless : pipeline.optimizer.Harmless) (tidy : shop.Tidy)
    (silent : task.IsSilent) : (shop.perform pipeline task).1.Tidy := by
  cases task with
  | compile f =>
      obtain ⟨after, after', compilation, compiled, -, both⟩ := Pipeline.compile_eq harmless
        (.refl f.name shop.session.store shop.session.world.counters)
      have name : after.name = shop.session.store.name := (Session.others_of_compile compiled).1
      obtain ⟨only, own⟩ := countsOnly_of_isSilent harmless silent compiled
      rw [perform_compile compiled]
      intro g mem
      show g.CountsOnly (·.BelongsTo after.name g.name)
      rw [name]
      rcases List.mem_append.mp mem with old | new
      · exact tidy g old
      · obtain rfl := List.mem_singleton.mp new
        rw [own]
        exact only
  | run function index limit args =>
      rw [Workshop.perform]
      cases (shop.codeOf function)[index]? with
      | none => exact tidy
      | some g => exact tidy

/-- A task of the name finds no difference and makes none. -/
theorem Alike.perform_own (harmless : pipeline.optimizer.Harmless) (tidy : shop.Tidy)
    (alike : shop.Alike answers task.name shop') :
    (shop'.perform pipeline task).2 = (shop.perform pipeline task).2 ∧
      (shop.perform pipeline task).1.Alike answers task.name (shop'.perform pipeline task).1 := by
  obtain ⟨held, code_eq, serves, serves'⟩ := alike
  cases task with
  | compile f =>
      obtain ⟨after, after', compilation, compiled, compiled', both⟩ :=
        Pipeline.compile_eq harmless held
      rw [perform_compile compiled, perform_compile compiled']
      refine ⟨rfl, both, ?_, serves, serves'⟩
      have same : shop'.code.filter (·.name = f.name) = shop.code.filter (·.name = f.name) :=
        code_eq
      show (shop'.code ++ [compilation.func]).filter (·.name = f.name) =
        (shop.code ++ [compilation.func]).filter (·.name = f.name)
      rw [List.filter_append, List.filter_append, same]
  | run function index limit args =>
      replace code_eq : shop'.codeOf function = shop.codeOf function := code_eq
      rw [Workshop.perform, Workshop.perform, code_eq]
      cases listed : (shop.codeOf function)[index]? with
      | none => exact ⟨rfl, held, code_eq, serves, serves'⟩
      | some g =>
          obtain ⟨mem, rfl⟩ := name_of_mem_codeOf (List.mem_of_getElem? listed)
          have agrees : shop.session.world.Agrees (·.BelongsTo shop.session.store.name g.name)
              answers shop'.session.world := by
            refine ⟨serves, serves', ?_⟩
            rintro counter ⟨measure, rfl⟩
            exact held.read_eq measure
          obtain ⟨same, after⟩ := Machine.agrees_run (tidy g mem) limit args agrees
          refine ⟨congrArg Answer.ended same, ⟨held.name_eq, held.profile?_eq, ?_⟩, code_eq,
            after.serves, after.serves'⟩
          exact fun measure => after.read_eq _ ⟨measure, rfl⟩

/-- A task of another name makes no difference. -/
theorem Alike.perform_other (harmless : pipeline.optimizer.Harmless) (tidy : shop.Tidy)
    (silent : task.IsSilent) (serves : shop.session.world.host.Serves answers)
    (apart : task.name ≠ function) :
    shop.Alike answers function (shop.perform pipeline task).1 := by
  cases task with
  | compile f =>
      obtain ⟨after, -, compilation, compiled, -, both⟩ := Pipeline.compile_eq harmless
        (.refl f.name shop.session.store shop.session.world.counters)
      obtain ⟨name, others⟩ := Session.others_of_compile compiled
      have own := (countsOnly_of_isSilent harmless silent compiled).2
      rw [perform_compile compiled]
      refine ⟨⟨name, others function apart, fun _ => rfl⟩, ?_, serves, serves⟩
      have foreign : compilation.func.name ≠ function := own ▸ apart
      show (shop.code ++ [compilation.func]).filter (·.name = function) = shop.codeOf function
      rw [List.filter_append, List.filter_singleton, decide_eq_false foreign, cond_false,
        List.append_nil, codeOf]
  | run other index limit args =>
      rw [Workshop.perform]
      cases listed : (shop.codeOf other)[index]? with
      | none => exact .refl function serves
      | some g =>
          obtain ⟨mem, rfl⟩ := name_of_mem_codeOf (List.mem_of_getElem? listed)
          refine ⟨⟨rfl, rfl, fun measure => ?_⟩, rfl, serves, Machine.serves_run g limit args serves⟩
          refine Machine.read_run (tidy g mem) ?_ limit args shop.session.world
          rintro ⟨measure', same⟩
          exact apart (Counter.owned.inj same).2.1.symm

/-! ## Tasks in a row -/

/-- Under one name the work goes as if nothing else were done. -/
theorem Alike.work_alone (harmless : pipeline.optimizer.Harmless) {tasks : List Task}
    (tidy : shop.Tidy) (silent : ∀ task ∈ tasks, task.IsSilent)
    (alike : shop.Alike answers function shop') :
    (shop.transcript pipeline tasks).filter (·.1.name = function) =
        shop'.transcript pipeline (tasks.filter (·.name = function)) ∧
      (shop.work pipeline tasks).Alike answers function
        (shop'.work pipeline (tasks.filter (·.name = function))) := by
  induction tasks generalizing shop shop' with
  | nil => exact ⟨rfl, alike⟩
  | cons task rest ih =>
      have quiet : task.IsSilent := silent task List.mem_cons_self
      have tidy' : (shop.perform pipeline task).1.Tidy := tidy.perform harmless quiet
      have silent' : ∀ task ∈ rest, task.IsSilent := fun task mem =>
        silent task (List.mem_cons_of_mem _ mem)
      by_cases own : task.name = function
      · subst own
        obtain ⟨same, after⟩ := alike.perform_own harmless tidy
        obtain ⟨answers, last⟩ := ih tidy' silent' after
        have here : (task :: rest).filter (·.name = task.name) =
            task :: rest.filter (·.name = task.name) :=
          List.filter_cons_of_pos (decide_eq_true rfl)
        rw [here]
        refine ⟨?_, last⟩
        rw [transcript, transcript, same, ← answers]
        exact List.filter_cons_of_pos (decide_eq_true rfl)
      · have kept := perform_other harmless tidy quiet alike.serves own
        obtain ⟨answers, last⟩ := ih tidy' silent' (kept.symm.trans alike)
        have apart : ¬ decide (task.name = function) = true := by simpa using own
        have here : (task :: rest).filter (·.name = function) =
            rest.filter (·.name = function) := List.filter_cons_of_neg apart
        rw [here]
        refine ⟨?_, last⟩
        rw [← answers, transcript]
        exact List.filter_cons_of_neg apart

/-- Tasks done in two orders that agree on each name get the same answers, and what is
reported in the end is the same. -/
theorem tasks_commute (harmless : pipeline.optimizer.Harmless) {session : Session}
    (functional : session.world.host.IsFunctional) {first second : List Task}
    (silent : ∀ task ∈ first, task.IsSilent)
    (same : ∀ function, first.filter (·.name = function) = second.filter (·.name = function)) :
    (∀ function,
        (transcript pipeline ⟨session, []⟩ first).filter (·.1.name = function) =
          (transcript pipeline ⟨session, []⟩ second).filter (·.1.name = function)) ∧
      ∀ active,
        ((work pipeline ⟨session, []⟩ first).session.perform (.dump active)).2 =
          ((work pipeline ⟨session, []⟩ second).session.perform (.dump active)).2 := by
  have silent' : ∀ task ∈ second, task.IsSilent := by
    intro task mem
    have among : task ∈ first.filter (·.name = task.name) := by
      rw [same]
      exact List.mem_filter.mpr ⟨mem, decide_eq_true rfl⟩
    exact silent task (List.mem_filter.mp among).1
  have tidy : Tidy ⟨session, []⟩ := nofun
  have start (function : String) :
      Alike session.world.host.answer? function ⟨session, []⟩ ⟨session, []⟩ :=
    .refl function (Host.serves_self functional)
  have alone (function : String) := (start function).work_alone harmless tidy silent
  have alone' (function : String) := (start function).work_alone harmless tidy silent'
  constructor
  · intro function
    rw [(alone function).1, (alone' function).1, same]
  · intro active
    have reports : Report.ofStore (work pipeline ⟨session, []⟩ second).session.store
          (work pipeline ⟨session, []⟩ second).session.world.counters =
        Report.ofStore (work pipeline ⟨session, []⟩ first).session.store
          (work pipeline ⟨session, []⟩ first).session.world.counters := by
      refine Report.ofStore_eq fun function => ?_
      have last := (alone function).2
      rw [same] at last
      exact (last.trans (alone' function).2.symm).held
    rw [Session.perform, Session.perform, reports]

theorem tasks_commute_choose :
    let choose := Sample.choose Sample.counting
    let other := { choose with name := "other" }
    let first := [Task.compile choose, .compile other, .run "other" 0 16 [0],
      .run "choose" 0 16 [1], .compile choose]
    let second := [Task.compile other, .run "other" 0 16 [0], .compile choose,
      .run "choose" 0 16 [1], .compile choose]
    (transcript Sample.pipeline ⟨.blank, []⟩ first).filter (·.1.name = "choose") =
        (transcript Sample.pipeline ⟨.blank, []⟩ second).filter (·.1.name = "choose") ∧
      ((work Sample.pipeline ⟨.blank, []⟩ first).session.perform (.dump true)).2 =
        ((work Sample.pipeline ⟨.blank, []⟩ second).session.perform (.dump true)).2 := by
  intro choose other first second
  have harmless : Sample.pipeline.optimizer.Harmless :=
    Sample.shipped_pipeline ▸ Optimizer.harmless_ofLowering _
  have silent : ∀ task ∈ first, task.IsSilent := by
    simp only [first, List.forall_mem_cons, List.not_mem_nil, false_implies, implies_true]
    exact ⟨rfl, rfl, trivial, trivial, rfl, trivial⟩
  have same (function : String) :
      first.filter (·.name = function) = second.filter (·.name = function) := by
    by_cases own : "choose" = function
    · subst own
      rfl
    · have foreign : choose.name ≠ function := own
      simp [first, second, Task.name, List.filter_cons, own, foreign]
  have functional : Session.blank.world.host.IsFunctional := Sample.functional_world
  obtain ⟨answers, reports⟩ := tasks_commute harmless functional silent same
  exact ⟨answers "choose", reports true⟩

end Workshop

end FlowProfile

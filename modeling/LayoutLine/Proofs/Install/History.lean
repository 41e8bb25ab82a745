import LayoutLine.Install
import Mathlib.Algebra.GroupWithZero.Nat

/-!
# The engine as a history

A run of installations hands the tree and the engine from one job to the next. What a fragment
comes to along an axis depends on the fragment, the axis and the standard spacing alone. A job that
succeeds adds its text and its constraints to the engine, one that fails adds nothing. So the engine
is the history of the jobs that succeeded, and a container has the constraints of its own jobs.
-/

namespace LayoutLine

/-- A fragment that is to be installed in a container along an axis. -/
structure InstallJob where
  /-- The container. -/
  container : ViewId
  /-- The fragment. -/
  fragment : Fragment ViewId
  /-- The axis. -/
  axis : Axis
  /-- Whether the views are freed of the constraints of their own frames. -/
  release : Bool

/-- The results of a run of jobs, and what it leaves. -/
structure InstallRun where
  /-- The result of each job, in order. -/
  results : List (Except FormatError Nat)
  /-- The tree afterwards. -/
  tree : ViewTree
  /-- The engine afterwards. -/
  engine : FormatEngine ViewId

namespace InstallJob

/-- The text the engine is asked about. -/
def text (job : InstallJob) : String := job.fragment.render job.axis

/-- The constraints that the fragment comes to along the axis, or why there are none. -/
def answer (config : StandardSpacing) (job : InstallJob) :
    Except FormatError (List (Constraint ViewId)) :=
  Line.constraintsOf job.text job.fragment.options job.fragment.toBindings config

/-- Does the job. -/
def run (job : InstallJob) (tree : ViewTree) (engine : FormatEngine ViewId) :
    Installation (FormatEngine ViewId) FormatError :=
  install tree engine job.container job.fragment job.axis job.release

/-- Does jobs one after the other, whatever comes of each. -/
def runAll (tree : ViewTree) (engine : FormatEngine ViewId) : List InstallJob → InstallRun
  | [] => ⟨[], tree, engine⟩
  | job :: jobs =>
    let first := job.run tree engine
    let later := runAll first.tree first.engine jobs
    { later with results := first.result :: later.results }

/-- The jobs that come to constraints, in order, with these constraints. -/
def successes (config : StandardSpacing) (jobs : List InstallJob) :
    List (InstallJob × List (Constraint ViewId)) :=
  jobs.filterMap fun job => (job.answer config).toOption.map (job, ·)

/-- A job that is answered stands in front of the successes that follow it. -/
theorem successes_cons_of_ok {config : StandardSpacing} {job : InstallJob}
    {constraints : List (Constraint ViewId)} (h : job.answer config = .ok constraints)
    (jobs : List InstallJob) :
    successes config (job :: jobs) = (job, constraints) :: successes config jobs := by
  rw [successes, List.filterMap_cons, h]
  rfl

/-- A job that fails is not among the successes. -/
theorem successes_cons_of_error {config : StandardSpacing} {job : InstallJob} {error : FormatError}
    (h : job.answer config = .error error) (jobs : List InstallJob) :
    successes config (job :: jobs) = successes config jobs := by
  rw [successes, List.filterMap_cons, h]
  rfl

/-- The numbers that jobs return are those of the constraints of the jobs that succeed. -/
theorem counts_eq (config : StandardSpacing) (jobs : List InstallJob) :
    (jobs.map fun job => (job.answer config).map List.length).filterMap Except.toOption =
      (successes config jobs).map (·.2.length) := by
  induction jobs with
  | nil => rfl
  | cons job jobs ih =>
    rw [List.map_cons]
    cases hanswer : job.answer config with
    | error error =>
      rw [successes_cons_of_error hanswer]
      exact ih
    | ok constraints =>
      rw [successes_cons_of_ok hanswer]
      exact congrArg (constraints.length :: ·) ih

end InstallJob

namespace FormatEngine

/-- The engine with the texts and the constraints of jobs that succeeded. -/
def extend (engine : FormatEngine ViewId)
    (done : List (InstallJob × List (Constraint ViewId))) : FormatEngine ViewId where
  config := engine.config
  formats := engine.formats ++ done.map (·.1.text)
  installed := engine.installed ++ done.flatMap fun job => job.2.map (job.1.container, ·)

variable (engine : FormatEngine ViewId)

theorem extend_nil : engine.extend [] = engine := by
  simp only [extend, List.map_nil, List.flatMap_nil, List.append_nil]

/-- The results of several jobs are added one after the other. -/
theorem extend_cons (job : InstallJob × List (Constraint ViewId))
    (done : List (InstallJob × List (Constraint ViewId))) :
    engine.extend (job :: done) = (engine.extend [job]).extend done := by
  simp only [extend, List.map_cons, List.map_nil, List.flatMap_cons, List.flatMap_nil,
    List.append_assoc, List.cons_append, List.nil_append]

/-- What is added for other containers does not show. -/
theorem constraintsOn_extend (done : List (InstallJob × List (Constraint ViewId)))
    (container : ViewId) :
    (engine.extend done).constraintsOn container = engine.constraintsOn container ++
      (done.filter (·.1.container == container)).flatMap Prod.snd := by
  induction done generalizing engine with
  | nil => rw [extend_nil, List.filter_nil, List.flatMap_nil, List.append_nil]
  | cons job done ih =>
    have hfirst : (engine.extend [job]).constraintsOn container =
        engine.constraintsOn container ++ if job.1.container == container then job.2 else [] := by
      simp only [extend, constraintsOn, List.flatMap_cons, List.flatMap_nil, List.append_nil,
        List.filter_append, List.map_append, List.filter_map, List.map_map, Function.comp_def]
      split <;> simp [*]
    rw [extend_cons, ih, hfirst, List.append_assoc, List.filter_cons]
    split
    · rw [List.flatMap_cons]
    · rw [List.nil_append]

/-- As many constraints are added as the jobs were answered with. -/
theorem size_extend (done : List (InstallJob × List (Constraint ViewId))) :
    (engine.extend done).size = engine.size + (done.map (·.2.length)).sum := by
  simp only [size, extend, List.length_append, List.length_flatMap, List.length_map]

end FormatEngine

namespace InstallJob

variable {job : InstallJob} {engine : FormatEngine ViewId}

/-- A job whose fragment comes to constraints returns their number and adds them. -/
theorem run_of_ok (tree : ViewTree) {constraints : List (Constraint ViewId)}
    (h : job.answer engine.config = .ok constraints) :
    (job.run tree engine).result = .ok constraints.length ∧
      (job.run tree engine).engine = engine.extend [(job, constraints)] := by
  have hask : LayoutEngine.constraintsFor engine (job.fragment.render job.axis)
      job.fragment.options job.fragment.toBindings =
        (.ok constraints, { engine with formats := engine.formats ++ [job.text] }) := by
    show FormatEngine.constraintsFor _ _ _ _ = _
    rw [FormatEngine.constraintsFor]
    rw [answer, text] at h
    rw [h]
    rfl
  rw [run, install, hask]
  refine ⟨rfl, ?_⟩
  simp only [FormatEngine.extend, List.map_cons, List.map_nil, List.flatMap_cons,
    List.flatMap_nil, List.append_nil]
  rfl

/-- A job whose fragment comes to nothing returns the reason and leaves the engine as it is. -/
theorem run_of_error (tree : ViewTree) {error : FormatError}
    (h : job.answer engine.config = .error error) :
    (job.run tree engine).result = .error error ∧ (job.run tree engine).engine = engine := by
  have hask : LayoutEngine.constraintsFor engine (job.fragment.render job.axis)
      job.fragment.options job.fragment.toBindings = (.error error, engine) := by
    show FormatEngine.constraintsFor _ _ _ _ = _
    rw [FormatEngine.constraintsFor]
    rw [answer, text] at h
    rw [h]
  rw [run, install, hask]
  exact ⟨rfl, rfl⟩

/-- A run adds the jobs that succeed to the engine, and returns what each job comes to. -/
theorem runAll_eq (tree : ViewTree) (engine : FormatEngine ViewId) (jobs : List InstallJob) :
    (runAll tree engine jobs).engine = engine.extend (successes engine.config jobs) ∧
      (runAll tree engine jobs).results =
        jobs.map fun job => (job.answer engine.config).map List.length := by
  induction jobs generalizing tree engine with
  | nil => exact ⟨engine.extend_nil.symm, rfl⟩
  | cons job jobs ih =>
    obtain ⟨hengine, hresults⟩ := ih (job.run tree engine).tree (job.run tree engine).engine
    rw [runAll, List.map_cons]
    cases hanswer : job.answer engine.config with
    | error error =>
      obtain ⟨hresult, hsame⟩ := run_of_error tree hanswer
      rw [hsame] at hengine hresults
      rw [successes_cons_of_error hanswer]
      exact ⟨by rw [hsame]; exact hengine, by rw [hresult, hsame]; exact congrArg _ hresults⟩
    | ok constraints =>
      obtain ⟨hresult, hadded⟩ := run_of_ok tree hanswer
      rw [hadded] at hengine hresults
      rw [successes_cons_of_ok hanswer, FormatEngine.extend_cons]
      exact ⟨by rw [hadded]; exact hengine, by rw [hresult, hadded]; exact congrArg _ hresults⟩

/-- After any run of jobs on an engine that held nothing, the engine has the texts of the jobs that
succeeded, in order, and for each container the constraints of those that were for it. Each job has
returned the number of its constraints or the reason there are none, and the numbers add up to all
there is. The next job, too, either fails and leaves the engine as it is, or returns the number of
the constraints that it adds behind those of its container. -/
theorem engine_keeps_history (config : StandardSpacing) (tree : ViewTree)
    (jobs : List InstallJob) :
    let run := runAll tree { config } jobs
    let done := successes config jobs
    run.engine.formats = done.map (·.1.text) ∧
    (∀ container, run.engine.constraintsOn container =
      (done.filter (·.1.container == container)).flatMap Prod.snd) ∧
    run.results = (jobs.map fun job => (job.answer config).map List.length) ∧
    run.engine.size = (run.results.filterMap Except.toOption).sum ∧
    ∀ job : InstallJob,
      let next := job.run run.tree run.engine
      (∃ error, next.result = .error error ∧ job.answer config = .error error ∧
        next.engine = run.engine) ∨
      ∃ constraints, next.result = .ok constraints.length ∧
        job.answer config = .ok constraints ∧
        next.engine.formats = run.engine.formats ++ [job.text] ∧
        next.engine.size = run.engine.size + constraints.length ∧
        ∀ container, next.engine.constraintsOn container = run.engine.constraintsOn container ++
          if job.container == container then constraints else [] := by
  intro run done
  obtain ⟨hengine, hresults⟩ := runAll_eq tree { config } jobs
  have hrun : run.engine = FormatEngine.extend { config } done := hengine
  have hconfig : run.engine.config = config := by rw [hrun]; rfl
  refine ⟨by rw [hrun]; rfl, fun container => ?_, hresults, ?_, fun job => ?_⟩
  · rw [hrun, FormatEngine.constraintsOn_extend]
    rfl
  · rw [hrun, FormatEngine.size_extend, hresults, counts_eq]
    exact Nat.zero_add _
  · intro next
    cases hanswer : job.answer config with
    | error error =>
      rw [← hconfig] at hanswer
      obtain ⟨hresult, hsame⟩ := run_of_error run.tree hanswer
      exact .inl ⟨error, hresult, rfl, hsame⟩
    | ok constraints =>
      rw [← hconfig] at hanswer
      obtain ⟨hresult, hadded⟩ := run_of_ok run.tree hanswer
      refine .inr ⟨constraints, hresult, rfl, by rw [hadded]; rfl, ?_, fun container => ?_⟩
      · rw [hadded, FormatEngine.size_extend]
        rfl
      · rw [hadded, FormatEngine.constraintsOn_extend, List.filter_cons]
        split <;> simp

end InstallJob
end LayoutLine

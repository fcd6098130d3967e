import PowerShare.Command

/-!
# What a step of a command does to the files

`Shell.Does environment before step result after` says of a step what it comes to and which files
it leaves, whatever was printed and counted so far:

* `Does.andThen`, `Does.bind` -- steps one after another, up to the first that fails;
* `does_print`, `does_traced` and their like -- the small steps, of which only `does_writeFile`
  leaves other files than it found;
* `run_of_does` -- what a run leaves is what its command leaves.
-/

namespace PowerShare

namespace Shell

/-- Started on these files, the step comes to this result and leaves those files. -/
def Does {α : Type} (environment : Settings.Environment) (before : Folder) (step : Shell α)
    (result : Except Failure α) (after : Folder) : Prop :=
  ∀ c : Console, c.folder = before → c.environment = environment →
    (step.run.run c).1 = result ∧ (step.run.run c).2.folder = after ∧
      (step.run.run c).2.environment = environment

variable {α β : Type} {environment : Settings.Environment} {before middle after : Folder}

/-! ## 1. Steps one after another -/

theorem does_pure (a : α) : Does environment before (pure a) (.ok a) before :=
  fun _ hfolder henvironment => ⟨rfl, hfolder, henvironment⟩

theorem run_bind (step : Shell α) (next : α → Shell β) (c : Console) :
    (step >>= next).run.run c =
      match (step.run.run c).1 with
      | .ok a => (next a).run.run (step.run.run c).2
      | .error e => (.error e, (step.run.run c).2) := by
  rw [ExceptT.run_bind, StateT.run_bind]
  obtain ⟨result, c', hrun⟩ : ∃ result c', step.run.run c = (result, c') := ⟨_, _, rfl⟩
  rw [hrun]
  cases result with
  | ok a => rfl
  | error e => rfl

/-- A step and the next one, which is left out if the first one fails. -/
theorem Does.andThen {step : Shell α} {next : α → Shell β} {x : Except Failure α}
    {result : Except Failure β} (h : Does environment before step x middle)
    (hok : ∀ a, x = .ok a → Does environment middle (next a) result after)
    (herror : ∀ e, x = .error e → result = .error e ∧ after = middle) :
    Does environment before (step >>= next) result after := by
  intro c hfolder henvironment
  obtain ⟨hresult, hafter, hkept⟩ := h c hfolder henvironment
  rw [run_bind, hresult]
  cases x with
  | ok a => exact hok a rfl _ hafter hkept
  | error e =>
    obtain ⟨rfl, rfl⟩ := herror e rfl
    exact ⟨rfl, hafter, hkept⟩

theorem Does.bind {step : Shell α} {next : α → Shell β} {a : α} {result : Except Failure β}
    (h : Does environment before step (.ok a) middle)
    (hnext : Does environment middle (next a) result after) :
    Does environment before (step >>= next) result after :=
  h.andThen (fun _ ha => Except.ok.inj ha ▸ hnext) fun _ he => by cases he

/-- What a step says about the console may be used by the next one. -/
theorem does_get_bind {next : Console → Shell β} {result : Except Failure β}
    (h : ∀ c : Console, c.folder = before → c.environment = environment →
      Does environment before (next c) result after) :
    Does environment before (get >>= next) result after := by
  intro c hfolder henvironment
  exact h c hfolder henvironment c hfolder henvironment

/-! ## 2. Small steps -/

theorem does_print (lines : List String) :
    Does environment before (print lines) (.ok ()) before :=
  fun _ hfolder henvironment => ⟨rfl, hfolder, henvironment⟩

theorem does_traced (t : Traced α) : Does environment before (traced t) (.ok t.value) before :=
  fun _ hfolder henvironment => ⟨rfl, hfolder, henvironment⟩

theorem does_orFail {ε : Type} (failure : ε → Failure) (x : Except ε α) :
    Does environment before (orFail failure x) (x.mapError failure) before := by
  intro c hfolder henvironment
  cases x with
  | ok a => exact ⟨rfl, hfolder, henvironment⟩
  | error e => exact ⟨rfl, hfolder, henvironment⟩

theorem does_throw (e : Failure) :
    Does environment before (throw e : Shell α) (.error e) before :=
  fun _ hfolder henvironment => ⟨rfl, hfolder, henvironment⟩

theorem does_writeFile {path : String} {bytes : List UInt8}
    (h : before.write path bytes = .ok after) :
    Does environment before (writeFile path bytes) (.ok ()) after := by
  unfold writeFile
  refine does_get_bind fun c hfolder _ => ?_
  rw [hfolder, h]
  refine (does_orFail (.output path) (.ok after)).bind ?_
  exact fun _ _ henvironment => ⟨rfl, rfl, henvironment⟩

/-- Values whose events are counted one after another. -/
theorem does_mapM_traced (ts : List (Traced α)) :
    Does environment before (ts.mapM traced) (.ok (ts.map (·.value))) before := by
  induction ts with
  | nil =>
    rw [List.mapM_nil]
    exact does_pure []
  | cons t ts ih =>
    rw [List.mapM_cons]
    exact (does_traced t).bind (ih.bind (does_pure _))

end Shell

/-! ## 3. Runs -/

theorem toList_textOfLines (lines : List String) :
    (textOfLines lines).toList = lines.flatMap fun line => line.toList ++ ['\n'] := by
  unfold textOfLines
  rw [String.toList_join, List.flatMap_map]
  exact congrArg (List.flatMap · lines) (funext fun line => String.toList_append)

theorem textOfLines_append (a b : List String) :
    textOfLines (a ++ b) = textOfLines a ++ textOfLines b := by
  rw [← String.toList_inj, String.toList_append, toList_textOfLines, toList_textOfLines,
    toList_textOfLines, List.flatMap_append]

/-- What a run leaves when its command has ended. -/
def Run.ofEnd : Except Failure Unit × Console → Run
  | (.ok (), c) => { code := 0, output := textOfLines c.lines, folder := c.folder }
  | (.error e, c) =>
    { code := 1
      output := textOfLines c.lines
      errors := textOfLines [failedLine e.message]
      folder := c.folder }

theorem run_eq_ofEnd {words : List String} {environment : Settings.Environment} {folder : Folder}
    {request : Request} (hwords : Request.ofWords? words = some request) :
    run words environment folder = Run.ofEnd (request.perform.run.run
      { filter := filterOf environment request.verbose, folder, environment }) := by
  unfold run
  rw [hwords]
  dsimp only
  obtain ⟨result, console, hrun⟩ : ∃ result console, request.perform.run.run
      { filter := filterOf environment request.verbose, folder, environment } =
        (result, console) := ⟨_, _, rfl⟩
  rw [hrun]
  cases result <;> rfl

/-- A run does what is asked for, and its code says whether that failed. -/
theorem run_of_does {words : List String} {environment : Settings.Environment}
    {before after : Folder} {request : Request} {result : Except Failure Unit}
    (hwords : Request.ofWords? words = some request)
    (h : Shell.Does environment before request.perform result after) :
    (run words environment before).folder = after ∧
      (run words environment before).code = if result.isOk then 0 else 1 := by
  obtain ⟨hresult, hafter, -⟩ := h
    { filter := filterOf environment request.verbose, folder := before, environment } rfl rfl
  rw [run_eq_ofEnd hwords]
  obtain ⟨ended, console, hrun⟩ : ∃ ended console, request.perform.run.run
      { filter := filterOf environment request.verbose, folder := before, environment } =
        (ended, console) := ⟨_, _, rfl⟩
  rw [hrun] at hresult hafter ⊢
  dsimp only at hresult hafter
  rw [hresult]
  cases result with
  | ok _ => exact ⟨hafter, rfl⟩
  | error _ => exact ⟨hafter, rfl⟩

end PowerShare

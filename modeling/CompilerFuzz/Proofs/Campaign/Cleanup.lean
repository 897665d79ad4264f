/-
  CompilerFuzz.Proofs.Campaign.Cleanup

  What a run leaves of the files. Removing the artifacts takes away the regular files that
  the three paths name, all of them and nothing else (`removeArtifacts_without`), so after a
  run, however it ended, none of the paths names one. If the tools keep to their
  outputs, every call is a rewriting of the artifacts (`invoke_rewritten`), which the
  removal at the end makes invisible: only directories above the source file can be new
  (`Swept`).
-/
import CompilerFuzz.Proofs.Campaign.Kept
import CompilerFuzz.Proofs.Files.Changes

namespace CompilerFuzz.Campaign

open CompilerFuzz.Files CompilerFuzz.Text

/-! ## Removing the artifacts -/

theorem removeOne_of_eq_none {t : Tree} {p : Path} (h : t.fileAt? p = none) (n : Nat) :
    removeOne (t, n) p = (t, n) := by
  unfold removeOne
  cases hr : t.removeFile p with
  | ok t' =>
    obtain ⟨l, hfile, -⟩ := Tree.removeFile_eq_ok_iff.1 hr
    rw [h] at hfile
    cases hfile
  | error e => rfl

theorem removeOne_of_eq_some {t : Tree} {p : Path} {l : Location} (h : t.fileAt? p = some l)
    (n : Nat) : removeOne (t, n) p = (t.erase l, n + 1) := by
  have hremoved : t.removeFile p = .ok (t.erase l) := Tree.removeFile_eq_ok_iff.2 ⟨l, h, rfl⟩
  unfold removeOne
  rw [hremoved]

theorem removeOne_without (t : Tree) (n : Nat) (p : Path) :
    Tree.Without [p] t (removeOne (t, n) p).1 := by
  cases h : t.fileAt? p with
  | none =>
    rw [removeOne_of_eq_none h]
    exact .of_fileAt?_eq_none h
  | some l =>
    rw [removeOne_of_eq_some h]
    exact .of_removeFile (Tree.removeFile_eq_ok_iff.2 ⟨l, h, rfl⟩)

/-- A file that cannot be removed does not keep the next ones from being removed. -/
theorem foldl_removeOne_without (ps : List Path) (t : Tree) (n : Nat) :
    Tree.Without ps t (ps.foldl removeOne (t, n)).1 := by
  induction ps generalizing t n with
  | nil => exact .nil t
  | cons p ps ih => exact (removeOne_without t n p).append (ih _ _)

theorem removeArtifacts_without (a : Artifacts) (t : Tree) :
    Tree.Without a.all t (removeArtifacts a t).1 :=
  foldl_removeOne_without a.all t 0

/-! ## What the tools do to the files -/

/-- The tools that a job calls change nothing but regular files at the paths that the
    compiler writes, their standard output apart. -/
def Environment.Confined (env : Environment) (job : Job) : Prop :=
  ∀ call ∈ job.calls, ∀ h files exit effect, env.respond h files call = .ran exit effect →
    Tree.Rewritten [job.artifacts.ir, job.artifacts.binary] (deliver call exit.stdout files)
      (effect (deliver call exit.stdout files))

theorem openOutput_rewritten {call : Invocation} {ps : List Path} {t t' : Tree}
    (hps : ∀ path, call.output = .file path → path ∈ ps) (h : openOutput call t = .ok t') :
    Tree.Rewritten ps t t' := by
  unfold openOutput at h
  split at h
  · cases h
    exact .refl
  · cases h
    exact .refl
  · next path hpath =>
    split at h
    · next hw =>
      cases h
      exact .write .refl (hps path hpath) hw
    · cases h

theorem deliver_rewritten {call : Invocation} {ps : List Path}
    (hps : ∀ path, call.output = .file path → path ∈ ps) (stdout : Bytes) (t : Tree) :
    Tree.Rewritten ps t (deliver call stdout t) := by
  unfold deliver
  split
  · exact .refl
  · exact .refl
  · next path hpath =>
    split
    · next hw => exact .write .refl (hps path hpath) hw
    · exact .refl

/-- The only output that goes to a file is that of the generator. -/
theorem Job.mem_all_of_output {job : Job} {call : Invocation} (hc : call ∈ job.calls)
    {path : Path} (h : call.output = .file path) : path ∈ job.artifacts.all := by
  rcases List.mem_cons.1 hc with rfl | hc
  · cases h
    exact List.mem_cons_self
  · unfold Job.exercises at hc
    split at hc
    · rw [List.mem_singleton.1 hc] at h
      cases h
    · rcases List.mem_cons.1 hc with rfl | hc
      · cases h
      · rw [List.mem_singleton.1 hc] at h
        cases h

/-- Every call of a confined tool is a rewriting of the artifacts, whether it succeeds or not. -/
theorem invoke_rewritten {env : Environment} {job : Job} (henv : env.Confined job)
    {call : Invocation} (hc : call ∈ job.calls) (w : World) :
    Tree.Rewritten job.artifacts.all w.files (invoke env call w).2.files := by
  have hps : ∀ path, call.output = .file path → path ∈ job.artifacts.all :=
    fun path h => Job.mem_all_of_output hc h
  unfold invoke
  split
  · exact .refl
  · next files hopen =>
    have hopened := openOutput_rewritten hps hopen
    split
    · exact hopened
    · next exit effect hanswer =>
      have heffect := henv call hc _ _ _ _ (respond_of_answer hanswer)
      -- opened, delivered to, and then changed by the tool itself
      have hsub : [job.artifacts.ir, job.artifacts.binary] ⊆ job.artifacts.all :=
        List.subset_cons_self _ _
      exact hopened.trans ((deliver_rewritten hps _ _).trans (heffect.mono hsub))

/-! ## Whole runs -/

/-- Files after a run, and files before it: directories above the source file may have been
    made, the regular files that the artifact paths then name are gone, and nothing else is
    different. -/
def Swept (a : Artifacts) (before after : Tree) : Prop :=
  ∃ made, Tree.Grown (Relation.TransGen Path.Up a.source) before made ∧
    Tree.Without a.all made after

theorem Swept.directoriesIn {a : Artifacts} {before after : Tree} (h : Swept a before after) :
    before.DirectoriesIn after := by
  obtain ⟨made, hgrown, hwithout⟩ := h
  exact fun l hl => hwithout.directoriesIn l (hgrown.directoriesIn l hl)

/-- Preparing a run makes directories above the source file, even if it fails. -/
theorem prepare_grown (job : Job) (w : World) :
    Tree.Grown (Relation.TransGen Path.Up job.artifacts.source) w.files (prepare job w).2.files := by
  unfold prepare
  split
  · exact .refl _ _
  · next dir hdir =>
    have hgrown : Tree.Grown (Relation.TransGen Path.Up job.artifacts.source) w.files
        (w.files.makeDirectories dir).1 :=
      (Tree.makeDirectories_grown w.files dir).mono fun q hq => .head' hdir hq
    split
    · next hmade =>
      rw [hmade] at hgrown
      exact hgrown
    · next hmade =>
      rw [hmade] at hgrown
      exact hgrown

/-- Confined tools rewrite the artifacts from the preparation of a run on. -/
theorem kept_rewritten {env : Environment} {job : Job} (henv : env.Confined job) (made : Tree) :
    Kept env job fun w => Tree.Rewritten job.artifacts.all made w.files where
  call _ hc w hw := hw.trans (invoke_rewritten henv hc w)
  check _ hw := hw
  progress _ _ hw := hw

/-- Single-pass campaigns whose source file is in a directory of its own. -/
def nested : Job where
  toolchain := ⟨"gen", [], "cc", "opt", [], [], "norm"⟩
  artifacts := ⟨"src/prog.c", "prog.ll", "prog"⟩
  plan := ⟨.ofSecs 1, .singlePass "sink", .abort, rfl⟩

/-- Tools of which the compiler writes the intermediate code and the optimizer is killed. -/
def emitting : Environment where
  respond _ _ call :=
    .ran ⟨if call.step = .optimize then none else some 0, [], []⟩ fun t =>
      if call.step = .emitIr then (t.write nested.artifacts.ir []).toOption.getD t else t
  elapsed _ := .zero
  latency _ := .zero
  stop _ := false

/-- Old intermediate code, and a directory in the place of the binary. -/
def littered : Tree :=
  ⟨[(Location.home ++ ["prog.ll"], .file [0]), (Location.home ++ ["prog"], .directory)]⟩

theorem confined_emitting : emitting.Confined nested := by
  intro call _ h files exit effect hr
  cases hr
  generalize deliver call [] files = t
  dsimp only
  split
  · cases hw : t.write nested.artifacts.ir [] with
    | error e => exact .refl
    | ok t' => exact .write .refl List.mem_cons_self hw
  · exact .refl

/-- When the first run of a campaign has finished, with whatever result, no artifact path
    names a regular file. If the tools change nothing but their outputs, the files are those
    before the run, apart from directories made above the source file and the regular files
    at the artifact paths; directories stay, those at artifact paths among them. -/
theorem run_removes_artifacts (env : Environment) (job : Job) (files : Tree) {fuel : Nat}
    {result : RunResult} {s : Session}
    (hrun : Session.run env fuel job (Session.start files) = some (result, s)) :
    (∀ p ∈ job.artifacts.all, s.world.files.isFile p = false) ∧
      (env.Confined job → Swept job.artifacts files s.world.files ∧
        files.DirectoriesIn s.world.files) := by
  obtain ⟨c, hcomplete, -, rfl⟩ := run_start_closed hrun
  -- the removal comes last, after every ending that a run has
  have hwithout : Tree.Without job.artifacts.all c.world.files (c.closed env job).world.files :=
    removeArtifacts_without job.artifacts c.world.files
  refine ⟨fun p hp => hwithout.isFile_eq_false hp, fun henv => ?_⟩
  have hrewritten := hcomplete.kept (kept_rewritten henv (prepare job ⟨files, []⟩).2.files) .refl
  have hswept : Swept job.artifacts files (c.closed env job).world.files :=
    ⟨_, prepare_grown job ⟨files, []⟩, hrewritten.without hwithout⟩
  exact ⟨hswept, hswept.directoriesIn⟩

/-- The run that ends with the death of the optimizer takes the old intermediate code with it. -/
theorem swept_of_killed_optimizer :
    littered.isFile nested.artifacts.ir = true ∧
    ∃ e s, Session.run emitting 1 nested (Session.start littered) = some (.error e, s) ∧
      emitting.Confined nested ∧ (∀ p ∈ nested.artifacts.all, s.world.files.isFile p = false) ∧
      Swept nested.artifacts littered s.world.files ∧ littered.DirectoriesIn s.world.files := by
  refine ⟨by decide +kernel, ?_⟩
  have hrun : (Session.run emitting 1 nested (Session.start littered)).any fun r =>
      match r.1 with
      | .ok _ => false
      | .error e => e == .toolchain .optimize none "" := by
    decide +kernel
  obtain ⟨⟨result, s⟩, hs, he⟩ := (Option.any_eq_true _ _).1 hrun
  obtain ⟨hnone, hconfined⟩ := run_removes_artifacts emitting nested littered hs
  obtain ⟨hswept, hstay⟩ := hconfined confined_emitting
  cases result with
  | ok summary => cases he
  | error e => exact ⟨e, s, hs, confined_emitting, hnone, hswept, hstay⟩

end CompilerFuzz.Campaign

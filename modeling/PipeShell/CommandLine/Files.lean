import PipeShell.CommandLine.Program

/-! # The files that a run can read

Which files the commands of a line ask for is settled before any of them runs: it depends on the line
and on the bindings, and no file or stream ever changes a binding. So the files of a whole run can be
read beforehand.

* **`Stage.fileArguments`** — the names of files among the arguments of a stage.
* **`Session.paths`** — the paths that some lines ask for, one line after the other.
* **`Session.reply_congr`** — a line does the same on disks that agree on its paths. -/

namespace PipeShell

/-- The file arguments of a command. -/
def Command.fileArguments (c : Command) (args : List Text) : List Text :=
  match c with
  | .echo | .pwd => []
  | .cat | .wc => args
  | .grep =>
    match parseSearch args with
    | .ok r => r.files
    | .error _ => []

/-- The file arguments of a stage. -/
def Session.fileArguments (s : Session) (stage : Stage) : List Text :=
  match s.command? stage.name with
  | some c => c.fileArguments stage.args
  | none => []

/-- The paths that a line asks for. -/
def Session.linePaths (s : Session) (line : Text) : List Text :=
  match planLine s.store line with
  | .ok p => (p.stages.flatMap s.fileArguments).map (Path.join s.dir)
  | .error _ => []

/-- **The paths that some lines ask for.** -/
def Session.paths : Session → List Text → List Text
  | _, [] => []
  | s, line :: rest => s.linePaths line ++ (s.afterLine line).paths rest

/-! ## Only these paths matter -/

/-- Files named by their paths are read alike from disks that agree on the paths. -/
theorem Surroundings.read?_congr {s s' : Surroundings} (hdir : s.dir = s'.dir) {name : Text}
    (h : s.disk (Path.join s.dir name) = s'.disk (Path.join s.dir name)) :
    s.read? name = s'.read? name := by
  simp only [read?, ← hdir, h]

/-- A command applied to its files does the same if the files are the same. -/
theorem Surroundings.overFiles_congr {s s' : Surroundings} {names : List Text}
    (h : ∀ name ∈ names, s.read? name = s'.read? name) (cmd : Text) (shown : Text → Bytes → Bytes)
    (summary : List Write) :
    s.overFiles cmd shown names summary = s'.overFiles cmd shown names summary := by
  have hw : names.map (s.showFile cmd shown) = names.map (s'.showFile cmd shown) :=
    List.map_congr_left fun name hn => by simp only [showFile, h name hn]
  have hc : s.filesCode names = s'.filesCode names := by
    have : (names.all fun name => (s.read? name).isSome)
        = names.all fun name => (s'.read? name).isSome := by
      rw [Bool.eq_iff_iff]
      simp only [List.all_eq_true]
      exact forall_congr' fun name => forall_congr' fun hn => by rw [h name hn]
    simp only [filesCode, this]
  simp only [overFiles, hw, hc]

/-- The files that can be read are the same if the files are the same. -/
theorem Surroundings.filterMap_read?_congr {s s' : Surroundings} {names : List Text}
    (h : ∀ name ∈ names, s.read? name = s'.read? name) :
    names.filterMap s.read? = names.filterMap s'.read? := by
  induction names with
  | nil => rfl
  | cons name names ih =>
    rw [List.filterMap_cons, List.filterMap_cons, h name List.mem_cons_self,
      ih fun other ho => h other (List.mem_cons_of_mem name ho)]

/-- A command does the same on disks that agree on its files. -/
theorem Command.transcript_congr (c : Command) {s s' : Surroundings} (hl : s.locale = s'.locale)
    (hd : s.dir = s'.dir) (args : List Text)
    (h : ∀ name ∈ c.fileArguments args, s.read? name = s'.read? name) (input : Source) :
    c.transcript s args input = c.transcript s' args input := by
  cases c with
  | echo => rfl
  | pwd => simp only [transcript, hd]
  | cat =>
    cases args with
    | nil => rfl
    | cons a as => exact Surroundings.overFiles_congr h _ _ _
  | wc =>
    cases args with
    | nil => rfl
    | cons a as =>
      have hr : (a :: as).filterMap s.read? = (a :: as).filterMap s'.read? :=
        Surroundings.filterMap_read?_congr h
      have ht : totalRow s (a :: as) = totalRow s' (a :: as) := by
        simp only [totalRow, hr, hl]
      simp only [transcript, count, ht]
      exact Surroundings.overFiles_congr h _ _ _
  | grep =>
    simp only [transcript, fileArguments] at h ⊢
    cases hp : parseSearch args with
    | error e => rfl
    | ok r =>
      simp only [hp] at h ⊢
      unfold SearchRequest.transcript
      split
      · rfl
      next hf => exact Surroundings.overFiles_congr (hf ▸ h) _ _ _
      next => exact Surroundings.overFiles_congr h _ _ _

/-- A stage does the same on disks that agree on its paths. -/
theorem Session.transcript_congr (s : Session) {disk disk' : Disk} (stage : Stage)
    (h : ∀ name ∈ s.fileArguments stage, disk (Path.join s.dir name) = disk' (Path.join s.dir name))
    (input : Source) : s.transcript disk stage input = s.transcript disk' stage input := by
  unfold transcript
  cases hc : s.command? stage.name with
  | none => rfl
  | some c =>
    have hd : (s.surroundings disk).dir = (s.surroundings disk').dir := rfl
    have hl : (s.surroundings disk).locale = (s.surroundings disk').locale := rfl
    refine Command.transcript_congr c hl hd _ (fun name hn => ?_) _
    have hn' : name ∈ s.fileArguments stage := by
      unfold fileArguments
      rw [hc]
      exact hn
    exact Surroundings.read?_congr hd (h name hn')

/-- A pipeline does the same on disks that agree on its paths. -/
theorem Session.pipelineReply_congr (s : Session) {disk disk' : Disk} (stages : List Stage)
    (h : ∀ name ∈ stages.flatMap s.fileArguments,
      disk (Path.join s.dir name) = disk' (Path.join s.dir name)) :
    s.pipelineReply disk stages = s.pipelineReply disk' stages := by
  unfold pipelineReply
  generalize ({} : Reply) = before
  induction stages generalizing before with
  | nil => rfl
  | cons stage stages ih =>
    have hs : s.stageReply disk before stage = s.stageReply disk' before stage := by
      unfold stageReply
      rw [s.transcript_congr stage fun name hn => h name (by simp [hn])]
    rw [List.foldl_cons, List.foldl_cons, hs]
    exact ih (fun name hn => h name (by
      rw [List.flatMap_cons]
      exact List.mem_append_right _ hn)) _

/-- **A line does the same on disks that agree on its paths.** -/
theorem Session.reply_congr (s : Session) {disk disk' : Disk} (line : Text)
    (h : ∀ path ∈ s.linePaths line, disk path = disk' path) :
    s.reply disk line = s.reply disk' line := by
  unfold reply
  unfold linePaths at h
  cases hp : planLine s.store line with
  | error r => rfl
  | ok p =>
    simp only [hp] at h ⊢
    rw [s.pipelineReply_congr p.stages fun name hn => h _ (List.mem_map_of_mem hn)]

/-- **Lines do the same on disks that agree on their paths.** -/
theorem Session.submitAll_congr {disk disk' : Disk} (s : Session) (sinks : Sinks)
    (lines : List Text) (h : ∀ path ∈ s.paths lines, disk path = disk' path) :
    s.submitAll disk sinks lines = s.submitAll disk' sinks lines := by
  induction lines generalizing s sinks with
  | nil => rfl
  | cons line rest ih =>
    -- the line itself does the same
    have hl : s.submit disk sinks line = s.submit disk' sinks line := by
      unfold submit
      rw [s.reply_congr line fun path hp => h path (by simp [paths, hp])]
    -- and what it leaves does not depend on the disk, so the paths of the rest are those foreseen
    have hs : (s.submit disk' sinks line).session = s.afterLine line := by
      unfold submit
      rw [← s.reply_snd disk' line]
      dsimp only
      split <;> rfl
    unfold submitAll
    rw [hl]
    split
    next s' sinks' _ he =>
      have : s' = s.afterLine line := by rw [← hs, he]
      subst this
      exact ih _ _ fun path hp => h path (by simp [paths, hp])
    next => rfl

/-! ## The program -/

/-- The script that an invocation reads, if it reads one. -/
def scriptPaths (args : List Text) : List Text :=
  match parseArguments args with
  | .ok (.start i) => i.script.toList
  | _ => []

/-- Does the program read its input? -/
def readsInput (args : List Text) : Bool :=
  match parseArguments args with
  | .ok (.start i) => i.script.isNone
  | _ => false

/-- The lines that an invocation executes. -/
def Invocation.lines (i : Invocation) (disk : Disk) (input : Bytes) : List Text :=
  match i.script with
  | some path =>
    match disk path with
    | .ok content => ({ data := content } : Source).commandLines
    | .error _ => []
  | none => if i.batch then ({ data := input } : Source).commandLines else (typedLines input).1

/-- **The paths that the commands of a run ask for.** -/
def commandPaths (dir : Text) (disk : Disk) (args : List Text) (input : Bytes) : List Text :=
  match parseArguments args with
  | .ok (.start i) => ({ dir := dir, locale := i.locale } : Session).paths (i.lines disk input)
  | _ => []

end PipeShell

import ChuMicro.Lib.Base64
import ChuMicro.Lib.Dict
import ChuMicro.Text
import Mathlib.Data.Char
import Mathlib.Data.List.Dedup
import Mathlib.Data.List.Lex

/-!
# Files written over the raw REPL

`_write_files_over_repl` of `chumicro_deploy/circuitpython_serial_transport.py` and what it calls:
the scripts that it submits one after another, and what a board does when it runs them. The handle
`_f` of the file that is being written lives on between two scripts.

`repr` of a device path is a parameter, as it depends on which characters can be printed; nothing
but its length matters.

## Main definitions

* `Deploy.buildWriteSubmissions` — the scripts that write one file.
* `Deploy.writeFilesOverRepl` — all scripts.
* `Deploy.Submission.run` — a script on the board.

## Main results

* `Deploy.runAll_writeFile` — a file is opened, written and closed.
* `Deploy.small_submissions` — the size of the scripts.
* `Deploy.writes_exact` — directories first, and then every file with its content.
-/

namespace ChuMicro.Deploy

/-! ## Scripts -/

/-- `_FILE_WRITE_RAW_CHUNK`. -/
def FILE_WRITE_RAW_CHUNK : ℕ := 512

/-- `_MAX_WRITE_SUBMISSION_BYTES`. It caps `len` of a script, which counts characters. -/
def MAX_WRITE_SUBMISSION_BYTES : ℕ := 12 * 1024

/-- A statement of a script: `import binascii` and `_f = open(path, 'wb')`,
`_f.write(binascii.a2b_base64(encoded))`, or `_f.close()`. -/
inductive Statement where
  | header (path : Str)
  | write (encoded : Str)
  | close
  deriving DecidableEq, Repr

/-- A statement that writes. -/
def Statement.isWrite : Statement → Bool
  | .write _ => true
  | _ => false

/-- The text of a statement. -/
def Statement.text (reprPath : Str → Str) : Statement → Str
  | .header path => "import binascii\n_f = open(".toList ++ reprPath path ++ ", 'wb')".toList
  | .write encoded => "_f.write(binascii.a2b_base64(".toList ++ reprQuoted encoded ++ "))".toList
  | .close => "_f.close()".toList

/-- `"\n".join(current)`. -/
def scriptText (reprPath : Str → Str) (script : List Statement) : Str :=
  ['\n'].intercalate (script.map (Statement.text reprPath))

/-- The pieces of a content that are written one by one. -/
def contentChunks (content : List UInt8) : List (List UInt8) :=
  if content = [] then []
  else content.take FILE_WRITE_RAW_CHUNK :: contentChunks (content.drop FILE_WRITE_RAW_CHUNK)
termination_by content.length
decreasing_by
  rename_i h
  have hpos := List.length_pos_of_ne_nil h
  rw [List.length_drop, FILE_WRITE_RAW_CHUNK]
  omega

/-- The loop of `_build_write_submissions`, with `current` and `current_size`. -/
def buildLoop (reprPath : Str → Str) :
    List (List UInt8) → List Statement → ℕ → List (List Statement)
  | [], current, _ => [current ++ [Statement.close]]
  | chunk :: chunks, current, currentSize =>
    let line : Statement := .write (Base64.encode chunk)
    let size := (line.text reprPath).length + 1
    if MAX_WRITE_SUBMISSION_BYTES < currentSize + size then
      current :: buildLoop reprPath chunks [line] size
    else buildLoop reprPath chunks (current ++ [line]) (currentSize + size)

/-- `_build_write_submissions`. -/
def buildWriteSubmissions (reprPath : Str → Str) (devicePath : Str) (content : List UInt8) :
    List (List Statement) :=
  let header : Statement := .header devicePath
  buildLoop reprPath (contentChunks content) [header] (header.text reprPath).length

/-! ## Directories -/

/-- `[part for part in device_path.split("/") if part]`. -/
def pathParts (devicePath : Str) : List Str := (devicePath.splitOn '/').filter (· ≠ [])

/-- `"/" + "/".join(parts)`. -/
def joinParts (parts : List Str) : Str := '/' :: ['/'].intercalate parts

/-- The directories above a path. -/
def parentDirs (devicePath : Str) : List Str :=
  let parts := pathParts devicePath
  (List.range' 1 (parts.length - 1)).map fun depth => joinParts (parts.take depth)

/-- The files to write: a dictionary from device paths to contents. -/
structure FileMap where
  items : List (Str × List UInt8)
  nodup : (items.map Prod.fst).Nodup

/-- The paths of the files. -/
def FileMap.paths (files : FileMap) : List Str := files.items.map Prod.fst

/-- `files[device_path]`. -/
def FileMap.content (files : FileMap) (devicePath : Str) : List UInt8 :=
  (Dict.get? devicePath files.items).getD []

/-- `needed_dirs`, a set, in whatever order it is gone through. -/
structure NeededDirs (files : FileMap) where
  dirs : List Str
  nodup : dirs.Nodup
  mem_iff : ∀ dir, dir ∈ dirs ↔ ∃ path ∈ files.paths, dir ∈ parentDirs path

/-- `needed_dirs`, in the order in which the directories are found. -/
def FileMap.neededDirs (files : FileMap) : NeededDirs files where
  dirs := (files.paths.flatMap parentDirs).dedup
  nodup := List.nodup_dedup _
  mem_iff dir := by rw [List.mem_dedup, List.mem_flatMap]

/-- One script that is sent: the loop over `os.mkdir`, or the statements that write. -/
inductive Submission where
  | mkdirs (dirs : List Str)
  | write (script : List Statement)
  deriving DecidableEq, Repr

/-- `sorted(needed_dirs, key=lambda directory: directory.count("/"))`. -/
def shallowestFirst (dirs : List Str) : List Str :=
  dirs.mergeSort fun a b => a.count '/' ≤ b.count '/'

/-- `sorted(files)`. -/
def sortedPaths (files : FileMap) : List Str := files.paths.mergeSort fun a b => a ≤ b

/-- `_write_files_over_repl`. -/
def writeFilesOverRepl (reprPath : Str → Str) (files : FileMap) (needed : NeededDirs files) :
    List Submission :=
  (if needed.dirs = [] then [] else [.mkdirs (shallowestFirst needed.dirs)]) ++
    (sortedPaths files).flatMap fun devicePath =>
      (buildWriteSubmissions reprPath devicePath (files.content devicePath)).map .write

/-! ## The board -/

/-- What a board does to its files. A directory that is there already is no error. -/
inductive FileEvent where
  | mkdir (dir : Str)
  | opened (path : Str)
  | wrote (path : Str) (data : List UInt8)
  | closed (path : Str)
  deriving DecidableEq, Repr

/-- The globals of the raw REPL, as far as scripts use them: the file that `_f` has open. And all
that has been done. -/
structure Board where
  handle : Option Str
  events : List FileEvent
  deriving DecidableEq, Repr

/-- A statement, which raises where `_f` is not open. -/
def Statement.run (b : Board) : Statement → Option Board
  | .header path => some ⟨some path, b.events ++ [FileEvent.opened path]⟩
  | .write encoded =>
    match b.handle, Base64.decode encoded with
    | some path, some data => some { b with events := b.events ++ [FileEvent.wrote path data] }
    | _, _ => none
  | .close =>
    match b.handle with
    | some path => some ⟨none, b.events ++ [FileEvent.closed path]⟩
    | none => none

/-- Statements one after another. -/
def runScript (b : Board) : List Statement → Option Board
  | [] => some b
  | statement :: script => (statement.run b).bind fun b => runScript b script

/-- One submission. -/
def Submission.run (b : Board) : Submission → Option Board
  | .mkdirs dirs => some { b with events := b.events ++ dirs.map .mkdir }
  | .write script => runScript b script

/-- All submissions in order. -/
def runAll (b : Board) : List Submission → Option Board
  | [] => some b
  | submission :: rest => (submission.run b).bind fun b => runAll b rest

/-- A file opened, written piece by piece, and closed. -/
def fileEvents (path : Str) (pieces : List (List UInt8)) : List FileEvent :=
  .opened path :: pieces.map (.wrote path) ++ [FileEvent.closed path]

example : (runAll ⟨none, []⟩ ((buildWriteSubmissions id "/a.py".toList []).map .write)).map
    Board.events = some [.opened "/a.py".toList, .closed "/a.py".toList] := by
  rw [buildWriteSubmissions, contentChunks]
  rfl

/-! ## Running the scripts -/

section Running

variable {reprPath : Str → Str} {b b' : Board} {path : Str} {events : List FileEvent}

lemma runScript_append {script more : List Statement} (h : runScript b script = some b') :
    runScript b (script ++ more) = runScript b' more := by
  induction script generalizing b with
  | nil =>
    cases h
    rfl
  | cons statement script ih =>
    obtain ⟨c, hstep, hrest⟩ := Option.bind_eq_some_iff.mp h
    rw [List.cons_append, runScript, hstep]
    exact ih hrest

lemma runAll_append {submissions more : List Submission} (h : runAll b submissions = some b') :
    runAll b (submissions ++ more) = runAll b' more := by
  induction submissions generalizing b with
  | nil =>
    cases h
    rfl
  | cons submission submissions ih =>
    obtain ⟨c, hstep, hrest⟩ := Option.bind_eq_some_iff.mp h
    rw [List.cons_append, runAll, hstep]
    exact ih hrest

/-- A statement that writes a chunk writes it to the file that is open. -/
lemma run_write (chunk : List UInt8) :
    (Statement.write (Base64.encode chunk)).run ⟨some path, events⟩ =
      some ⟨some path, events ++ [FileEvent.wrote path chunk]⟩ := by
  simp only [Statement.run, Base64.decode_encode]

/-- **The scripts that are left write the chunks that are left**, wherever the statements that are
pending have been cut off, and close the file.

**Proof sketch.** Induction on the chunks. At a cut the pending statements run as one script and
leave the file open for the next; otherwise one more statement is pending. -/
lemma runAll_buildLoop (chunks : List (List UInt8)) {current : List Statement} {size : ℕ}
    (h : runScript b current = some ⟨some path, events⟩) :
    runAll b ((buildLoop reprPath chunks current size).map .write) =
      some ⟨none, events ++ chunks.map (FileEvent.wrote path) ++ [FileEvent.closed path]⟩ := by
  induction chunks generalizing b current size events with
  | nil =>
    have hclose : runScript b (current ++ [Statement.close]) =
        some ⟨none, events ++ [FileEvent.closed path]⟩ := by
      rw [runScript_append h]
      rfl
    rw [buildLoop, List.map_singleton, runAll, Submission.run, hclose, List.map_nil, List.append_nil]
    rfl
  | cons chunk chunks ih =>
    have hevents : events ++ (chunk :: chunks).map (FileEvent.wrote path) ++
          [FileEvent.closed path] =
        (events ++ [FileEvent.wrote path chunk]) ++ chunks.map (FileEvent.wrote path) ++
          [FileEvent.closed path] := by
      simp
    rw [hevents, buildLoop]
    split_ifs with hcut
    · rw [List.map_cons, runAll, Submission.run, h]
      refine ih ?_
      rw [runScript, run_write]
      rfl
    · refine ih ?_
      rw [runScript_append h, runScript, run_write]
      rfl

/-- **A file is opened, written and closed.** -/
theorem runAll_writeFile (content : List UInt8) :
    runAll b ((buildWriteSubmissions reprPath path content).map .write) =
      some ⟨none, b.events ++ fileEvents path (contentChunks content)⟩ := by
  have hheader : runScript b [.header path] =
      some ⟨some path, b.events ++ [FileEvent.opened path]⟩ := rfl
  rw [buildWriteSubmissions, runAll_buildLoop _ hheader]
  simp [fileEvents]

/-- One file after another. -/
lemma runAll_writeFiles (content : Str → List UInt8) (paths : List Str) :
    runAll ⟨none, events⟩ (paths.flatMap fun path =>
        (buildWriteSubmissions reprPath path (content path)).map .write) =
      some ⟨none, events ++ paths.flatMap fun path =>
        fileEvents path (contentChunks (content path))⟩ := by
  induction paths generalizing events with
  | nil => simp [runAll]
  | cons path paths ih =>
    rw [List.flatMap_cons, runAll_append (runAll_writeFile _), ih, List.flatMap_cons,
      List.append_assoc]

/-- The pieces of a content make it up. -/
lemma flatten_contentChunks (content : List UInt8) : (contentChunks content).flatten = content := by
  fun_induction contentChunks content with
  | case1 => rfl
  | case2 content hne ih => rw [List.flatten_cons, ih, List.take_append_drop]

end Running

/-! ## The size of the scripts -/

section Sizes

variable {reprPath : Str → Str} {script : List Statement}

/-- The statements of a script that write. -/
def writeCount (script : List Statement) : ℕ := script.countP Statement.isWrite

/-- The line that closes the file, with the line break before it. -/
def closingLine : Str := "\n_f.close()".toList

lemma length_scriptText_concat (h : script ≠ []) (statement : Statement) :
    (scriptText reprPath (script ++ [statement])).length =
      (scriptText reprPath script).length + (1 + (statement.text reprPath).length) := by
  unfold scriptText
  induction script with
  | nil => exact absurd rfl h
  | cons first script ih =>
    cases script with
    | nil => simp [List.intercalate, add_assoc, add_comm]
    | cons second script =>
      have hrest := ih (by simp)
      simp only [List.cons_append, List.map_cons, List.intercalate_cons_cons, List.length_append]
        at hrest ⊢
      omega

/-- **A script with several statements that write is not larger than the cap and the closing line.**

**Proof sketch.** Induction on the chunks: `current_size` is at least the size of the pending
statements, and is within the cap from the second one that writes on, which was put behind the first
only where there was room. -/
lemma small_buildLoop {chunks : List (List UInt8)} {current : List Statement} {size : ℕ}
    (hne : current ≠ []) (hsize : (scriptText reprPath current).length ≤ size)
    (hcap : 2 ≤ writeCount current → size ≤ MAX_WRITE_SUBMISSION_BYTES) :
    ∀ script ∈ buildLoop reprPath chunks current size, 2 ≤ writeCount script →
      (scriptText reprPath script).length ≤ MAX_WRITE_SUBMISSION_BYTES + closingLine.length := by
  induction chunks generalizing current size with
  | nil =>
    intro script hmem hwrites
    rw [buildLoop, List.mem_singleton] at hmem
    subst hmem
    have hcount : writeCount (current ++ [Statement.close]) = writeCount current := by
      simp [writeCount, Statement.isWrite]
    have hclose : 1 + (Statement.close.text reprPath).length = closingLine.length := rfl
    have hroom := hcap (hcount ▸ hwrites)
    rw [length_scriptText_concat hne, hclose]
    omega
  | cons chunk chunks ih =>
    rw [buildLoop]
    split_ifs with hcut
    · intro script hmem hwrites
      rcases List.mem_cons.mp hmem with rfl | hmem
      · have hroom := hcap hwrites
        omega
      · refine ih (by simp) ?_ ?_ script hmem hwrites
        · simp [scriptText]
        · intro hmany
          simp [writeCount, Statement.isWrite] at hmany
    · refine ih (by simp) ?_ fun _ => not_lt.mp hcut
      rw [length_scriptText_concat hne]
      omega

theorem small_submissions (path : Str) (content : List UInt8) :
    ∀ script ∈ buildWriteSubmissions reprPath path content, 2 ≤ writeCount script →
      (scriptText reprPath script).length ≤ MAX_WRITE_SUBMISSION_BYTES + closingLine.length := by
  refine small_buildLoop (by simp) ?_ ?_
  · simp [scriptText]
  · intro hmany
    simp [writeCount, Statement.isWrite] at hmany

end Sizes

/-! ## Directories in order -/

section Directories

variable {parts : List Str} {path dir parent : Str}

/-- Parts of a path: none is empty or has a slash. -/
def Proper (parts : List Str) : Prop := ∀ part ∈ parts, part ≠ [] ∧ '/' ∉ part

/-- No part of a text that is split has the separator. -/
lemma notMem_of_mem_splitOn {sep : Char} {text part : Str} (h : part ∈ text.splitOn sep) :
    sep ∉ part := by
  induction text generalizing part with
  | nil =>
    obtain rfl := List.mem_singleton.mp h
    simp
  | cons c text ih =>
    rw [List.splitOn_cons_eq_if_modifyHead] at h
    split_ifs at h with hc
    · rcases List.mem_cons.mp h with rfl | h
      · simp
      · exact ih h
    · obtain ⟨head, rest, heq⟩ := List.exists_cons_of_ne_nil (List.splitOn_ne_nil sep text)
      rw [heq, List.modifyHead_cons] at h
      rcases List.mem_cons.mp h with rfl | h
      · have hhead := ih (heq ▸ List.mem_cons_self)
        simp only [List.mem_cons, not_or]
        exact ⟨fun hsep => hc (by simp [hsep]), hhead⟩
      · exact ih (heq ▸ List.mem_cons_of_mem _ h)

lemma proper_pathParts (path : Str) : Proper (pathParts path) := by
  intro part hpart
  obtain ⟨hmem, hne⟩ := List.mem_filter.mp hpart
  exact ⟨by simpa using hne, notMem_of_mem_splitOn hmem⟩

lemma pathParts_joinParts (h : Proper parts) (hne : parts ≠ []) :
    pathParts (joinParts parts) = parts := by
  have hjoin : joinParts parts = ['/'].intercalate ([] :: parts) := by
    cases parts with
    | nil => exact absurd rfl hne
    | cons part parts => rfl
  have hsplit : (joinParts parts).splitOn '/' = [] :: parts := by
    rw [hjoin]
    refine List.splitOn_intercalate '/' ?_ (by simp)
    intro part hpart
    rcases List.mem_cons.mp hpart with rfl | hpart
    · simp
    · exact (h part hpart).2
  rw [pathParts, hsplit, List.filter_cons_of_neg (by simp), List.filter_eq_self]
  intro part hpart
  simpa using (h part hpart).1

lemma count_joinParts (h : Proper parts) (hne : parts ≠ []) :
    (joinParts parts).count '/' = parts.length := by
  have hinner : ∀ parts : List Str, Proper parts → parts ≠ [] →
      (['/'].intercalate parts).count '/' + 1 = parts.length := by
    intro parts
    induction parts with
    | nil => exact fun _ hne => absurd rfl hne
    | cons part parts ih =>
      intro hproper _
      have hpart : part.count '/' = 0 := List.count_eq_zero.mpr (hproper part List.mem_cons_self).2
      cases parts with
      | nil => simpa [List.intercalate] using hpart
      | cons next parts =>
        have hrest := ih (fun p hp => hproper p (List.mem_cons_of_mem _ hp)) (by simp)
        rw [List.intercalate_cons_cons, List.count_append, List.count_append, hpart]
        simp only [List.count_singleton_self, List.length_cons] at hrest ⊢
        omega
  rw [joinParts, List.count_cons_self, hinner parts h hne]

lemma mem_parentDirs : dir ∈ parentDirs path ↔
    ∃ depth, 0 < depth ∧ depth < (pathParts path).length ∧
      dir = joinParts ((pathParts path).take depth) := by
  simp only [parentDirs, List.mem_map, List.mem_range'_1]
  constructor
  · rintro ⟨depth, hdepth, rfl⟩
    exact ⟨depth, by omega, by omega, rfl⟩
  · rintro ⟨depth, hpos, hlt, rfl⟩
    exact ⟨depth, by omega, rfl⟩

lemma Proper.take (h : Proper parts) (n : ℕ) : Proper (parts.take n) :=
  fun part hpart => h part (List.mem_of_mem_take hpart)

/-- A directory above a path, by its parts. -/
lemma pathParts_of_mem_parentDirs (h : dir ∈ parentDirs path) :
    ∃ depth, 0 < depth ∧ depth < (pathParts path).length ∧ dir = joinParts (pathParts dir) ∧
      pathParts dir = (pathParts path).take depth := by
  obtain ⟨depth, hpos, hlt, rfl⟩ := mem_parentDirs.mp h
  have hne : (pathParts path).take depth ≠ [] := by
    refine List.ne_nil_of_length_pos ?_
    rw [List.length_take]
    omega
  have hparts := pathParts_joinParts ((proper_pathParts path).take depth) hne
  exact ⟨depth, hpos, hlt, by rw [hparts], hparts⟩

/-- What is above a directory above a path is above the path. -/
lemma mem_parentDirs_trans (hparent : parent ∈ parentDirs dir) (hdir : dir ∈ parentDirs path) :
    parent ∈ parentDirs path := by
  obtain ⟨depth, hpos, hlt, -, hparts⟩ := pathParts_of_mem_parentDirs hdir
  obtain ⟨depth', hpos', hlt', rfl⟩ := mem_parentDirs.mp hparent
  rw [hparts, List.length_take] at hlt'
  refine mem_parentDirs.mpr ⟨depth', hpos', by omega, ?_⟩
  rw [hparts, List.take_take, min_eq_left (by omega)]

/-- A directory has fewer slashes than what is below it. -/
lemma count_lt_of_mem_parentDirs (hparent : parent ∈ parentDirs dir)
    (hdir : dir ∈ parentDirs path) : parent.count '/' < dir.count '/' := by
  have hcount : ∀ {dir path : Str}, dir ∈ parentDirs path →
      dir.count '/' = (pathParts dir).length := by
    intro dir path h
    obtain ⟨depth, hpos, hlt, hjoin, hparts⟩ := pathParts_of_mem_parentDirs h
    have hne : pathParts dir ≠ [] := by
      refine List.ne_nil_of_length_pos ?_
      rw [hparts, List.length_take]
      omega
    rw [hjoin, count_joinParts (proper_pathParts dir) hne, ← hjoin]
  obtain ⟨depth, hpos, hlt, -, hparts⟩ := pathParts_of_mem_parentDirs hparent
  rw [hcount hparent, hcount hdir, hparts, List.length_take]
  omega

/-- **A directory comes after all that are above it.** -/
lemma mem_before_of_parent {files : FileMap} (needed : NeededDirs files) {before behind : List Str}
    (hsplit : shallowestFirst needed.dirs = before ++ dir :: behind)
    (hparent : parent ∈ parentDirs dir) : parent ∈ before := by
  have hperm := List.mergeSort_perm needed.dirs fun a b => decide (a.count '/' ≤ b.count '/')
  have hmem : dir ∈ needed.dirs := hperm.mem_iff.mp (by
    change dir ∈ shallowestFirst needed.dirs
    rw [hsplit]
    simp)
  obtain ⟨path, hpath, hdir⟩ := (needed.mem_iff dir).mp hmem
  have hlt := count_lt_of_mem_parentDirs hparent hdir
  have hneeded : parent ∈ shallowestFirst needed.dirs :=
    hperm.mem_iff.mpr ((needed.mem_iff parent).mpr ⟨path, hpath, mem_parentDirs_trans hparent hdir⟩)
  rw [hsplit] at hneeded
  rcases List.mem_append.mp hneeded with hbefore | hrest
  · exact hbefore
  · exfalso
    have hsorted : (shallowestFirst needed.dirs).Pairwise fun a b => a.count '/' ≤ b.count '/' := by
      have h := @List.pairwise_mergeSort Str (fun a b => decide (a.count '/' ≤ b.count '/'))
        (fun a b c => by simpa using le_trans) (fun a b => by simpa using le_total _ _) needed.dirs
      exact h.imp fun hle => of_decide_eq_true hle
    rw [hsplit] at hsorted
    rcases List.mem_cons.mp hrest with rfl | hbehind
    · exact absurd hlt (lt_irrefl _)
    · have hle := (List.pairwise_cons.mp (List.pairwise_append.mp hsorted).2.1).1 parent hbehind
      omega

end Directories

/-! ## All files -/

/-- **Files are written exactly.** The board makes every directory above a file once, each after
those above it and all of them before it opens a file; then it opens every file once, writes pieces
that make up its content, and closes it; and no script with more than one statement that writes has
more characters than the cap and the line that closes the file. -/
theorem writes_exact (reprPath : Str → Str) (files : FileMap) (needed : NeededDirs files) :
    ∃ (dirs paths : List Str) (pieces : Str → List (List UInt8)),
      runAll ⟨none, []⟩ (writeFilesOverRepl reprPath files needed) =
        some ⟨none, dirs.map .mkdir ++ paths.flatMap fun path => fileEvents path (pieces path)⟩ ∧
      (dirs.Nodup ∧ ∀ dir, dir ∈ dirs ↔ ∃ path ∈ files.paths, dir ∈ parentDirs path) ∧
      (∀ before dir behind, dirs = before ++ dir :: behind →
        ∀ parent ∈ parentDirs dir, parent ∈ before) ∧
      (paths.Nodup ∧ ∀ path, path ∈ paths ↔ path ∈ files.paths) ∧
      (∀ entry ∈ files.items, (pieces entry.1).flatten = entry.2) ∧
      ∀ script, .write script ∈ writeFilesOverRepl reprPath files needed → 2 ≤ writeCount script →
        (scriptText reprPath script).length ≤ MAX_WRITE_SUBMISSION_BYTES + closingLine.length := by
  have hdirs := List.mergeSort_perm needed.dirs fun a b => decide (a.count '/' ≤ b.count '/')
  have hpaths := List.mergeSort_perm files.paths fun a b => decide (a ≤ b)
  refine ⟨shallowestFirst needed.dirs, sortedPaths files,
    fun path => contentChunks (files.content path), ?_,
    ⟨hdirs.nodup_iff.mpr needed.nodup, fun dir => hdirs.mem_iff.trans (needed.mem_iff dir)⟩,
    fun before dir behind hsplit parent => mem_before_of_parent needed hsplit,
    ⟨hpaths.nodup_iff.mpr files.nodup, fun path => hpaths.mem_iff⟩, fun entry hentry => ?_,
    fun script hmem => ?_⟩
  · have hmkdirs : runAll ⟨none, []⟩
        (if needed.dirs = [] then [] else [.mkdirs (shallowestFirst needed.dirs)]) =
          some ⟨none, (shallowestFirst needed.dirs).map .mkdir⟩ := by
      split_ifs with hempty
      · rw [shallowestFirst, hempty, List.mergeSort_nil]
        rfl
      · rfl
    rw [writeFilesOverRepl, runAll_append hmkdirs]
    exact runAll_writeFiles files.content (sortedPaths files)
  · have hget : Dict.get? entry.1 files.items = some entry.2 :=
      (Dict.get?_eq_some_iff files.nodup).mpr hentry
    rw [flatten_contentChunks, FileMap.content, hget]
    rfl
  · rw [writeFilesOverRepl, List.mem_append, List.mem_flatMap] at hmem
    rcases hmem with hmkdirs | ⟨path, -, hwrite⟩
    · split_ifs at hmkdirs
      · cases hmkdirs
      · cases List.mem_singleton.mp hmkdirs
    · obtain ⟨script', hscript, heq⟩ := List.mem_map.mp hwrite
      cases heq
      exact small_submissions path (files.content path) script hscript

end ChuMicro.Deploy

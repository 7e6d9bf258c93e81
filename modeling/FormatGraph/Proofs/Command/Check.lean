import FormatGraph.Command.Run
import FormatGraph.Files.Directory
import FormatGraph.Proofs.Command.Findings
import FormatGraph.Proofs.Files.Path
import FormatGraph.Proofs.Graph.Ends
import FormatGraph.Proofs.Graph.Search

/-! Checks of many files. Every file that cannot be loaded is reported once, in the order of the files,
and no other is; what is counted from the report are the files themselves, so the numbers of a summary
add up and the exit code tells whether all files can be loaded. -/

namespace FormatGraph

section unchanged
variable {σ α β : Type} {world : σ}

theorem unchanged_bind {first : StateM σ α} {next : α → StateM σ β}
    (hfirst : (first.run world).2 = world) (hnext : ∀ a, ((next a).run world).2 = world) :
    ((first >>= next).run world).2 = world := by
  change ((next (first.run world).1).run (first.run world).2).2 = world
  rw [hfirst]
  exact hnext _

theorem run_mapM_of_unchanged {act : α → StateM σ β} {items : List α}
    (h : ∀ item ∈ items, ((act item).run world).2 = world) :
    (items.mapM act).run world = (items.map fun item => ((act item).run world).1, world) := by
  induction items with
  | nil => rfl
  | cons item items ih =>
    obtain ⟨hitem, hitems⟩ := List.forall_mem_cons.1 h
    rw [List.mapM_cons, List.map_cons]
    change (((act item).run world).1 :: ((items.mapM act).run ((act item).run world).2).1,
      ((items.mapM act).run ((act item).run world).2).2) = _
    rw [hitem, ih hitems]

/-- What is done at once has the results that it has alone, in the order of the items, if nothing that
is done changes the world. -/
def Parallel.KeepsOrder (σ : Type) [Parallel (StateM σ)] : Prop :=
  ∀ {α β : Type} (act : α → StateM σ β) (items : List α) (world : σ),
    (∀ item ∈ items, ((act item).run world).2 = world) →
      (Parallel.map act items).run world = (items.map fun item => ((act item).run world).1, world)

theorem Parallel.keepsOrder_one_by_one (σ : Type) : Parallel.KeepsOrder σ :=
  fun _ _ _ => run_mapM_of_unchanged

end unchanged

section loading
variable {σ : Type} [Files (StateM σ)] {world : σ} {strict : Bool} {file : String} {graph : Graph}

def Files.ReadOnly (world : σ) : Prop :=
  ∀ path, ((Files.read path : StateM σ (Except FileError ByteArray)).run world).2 = world

def Graph.readFrom (world : σ) (strict : Bool) (file : String) :
    Except LoadError (List String × Graph) :=
  ((Graph.ofFile strict file : StateM σ _).run world).1

/-- A file can be loaded: a graph can be read from it, in which no node below the root is its own
descendant. -/
def Loads (world : σ) (strict : Bool) (file : String) : Prop :=
  ∃ names graph, Graph.readFrom world strict file = .ok (names, graph) ∧ graph.Acyclic Graph.root

/-- A file cannot be loaded, with what is said of it: no graph can be read, or some node below the
root is its own descendant. -/
inductive FailsToLoad (world : σ) (strict : Bool) (file : String) : Failure → Prop where
  | unread {error : LoadError} (h : Graph.readFrom world strict file = .error error) :
      FailsToLoad world strict file ⟨"Failed to load " ++ file, error.message :: error.causes⟩
  | circular {names : List String} {graph : Graph} {id : NodeId} {kind : Kind}
      (h : Graph.readFrom world strict file = .ok (names, graph))
      (hcycle : graph.OnCycleBelow Graph.root id) (hkind : graph.kindOf id = .ok kind) :
      FailsToLoad world strict file ⟨"Failed to load " ++ file ++ ": " ++
        (kind.name ++ " " ++ id.text ++ " is its own descendant"), []⟩

theorem FailsToLoad.not_loads {failure : Failure} (h : FailsToLoad world strict file failure) :
    ¬ Loads world strict file := by
  rintro ⟨names, graph, hread, hacyclic⟩
  cases h with
  | unread h => cases h.symm.trans hread
  | circular h hcycle =>
    cases h.symm.trans hread
    exact hacyclic _ hcycle.1 hcycle.2

theorem fromUTF8?_toUTF8 (text : String) : String.fromUTF8? text.toUTF8 = some text := by
  unfold String.fromUTF8?
  rw [String.toUTF8_eq_toByteArray, dif_pos text.isValidUTF8]
  rfl

theorem Graph.readFrom_of_read {text : String}
    (h : (Files.read file : StateM σ _).run world = (.ok text.toUTF8, world))
    (hmark : text.toList.dropWhile (· = Files.byteOrderMark) = text.toList) :
    Graph.readFrom world strict file = Graph.ofText strict file text := by
  have hkept : String.ofList (text.toList.dropWhile (· = Files.byteOrderMark)) = text := by
    rw [hmark, String.ofList_toList]
  have htext : (Files.readText file : StateM σ _).run world = (.ok text, world) := by
    unfold Files.readText
    rw [StateT.run_bind, h]
    dsimp only [bind]
    rw [fromUTF8?_toUTF8]
    rfl
  have hpayload : (Files.readPayload file : StateM σ _).run world = (.ok text, world) := by
    unfold Files.readPayload
    rw [StateT.run_bind, htext]
    exact congrArg (fun text => (Except.ok text, world)) hkept
  unfold Graph.readFrom Graph.ofFile
  rw [StateT.run_bind, hpayload]
  rfl

theorem Graph.assembled_of_readFrom {names : List String}
    (h : Graph.readFrom world strict file = .ok (names, graph)) : graph.Assembled := by
  obtain ⟨text, htext⟩ : ∃ text, Graph.ofText strict file text = .ok (names, graph) := by
    unfold Graph.readFrom Graph.ofFile at h
    rw [StateT.run_bind] at h
    rcases hread : (Files.readPayload file : StateM σ _).run world with ⟨read, after⟩
    rw [hread] at h
    cases read with
    | error error => cases h
    | ok text => exact ⟨text, h⟩
  obtain ⟨payload, -, hload⟩ := bind_eq_ok_iff.1 htext
  obtain ⟨raw, -, hlink⟩ := bind_eq_ok_iff.1 hload
  obtain ⟨linked, hlinked, hpair⟩ := bind_eq_ok_iff.1 hlink
  cases hpair
  exact .raw (mapError_eq_ok_iff.1 hlinked)

theorem Graph.walkable_cases (hclosed : graph.Closed) (file : String) :
    graph.walkable file = .ok graph ∧ graph.Acyclic Graph.root ∨
      ∃ id kind, graph.OnCycleBelow Graph.root id ∧ graph.kindOf id = .ok kind ∧
        graph.walkable file = .error ⟨"Failed to load " ++ file ++ ": " ++
          (kind.name ++ " " ++ id.text ++ " is its own descendant"), []⟩ := by
  have hroot := hasNode_root hclosed
  obtain ⟨found, hfound, hacyclic, hcycle⟩ := findCycle_returns hclosed hroot
  unfold Graph.walkable
  rw [hfound]
  cases found with
  | none => exact .inl ⟨rfl, hacyclic rfl⟩
  | some id =>
    have hid : graph.HasNode id := hclosed.hasNode_of_reaches hroot (hcycle id rfl).1
    obtain ⟨kind, hkind, -⟩ := kindOf_returns hid
    refine .inr ⟨id, kind, hcycle id rfl, hkind, ?_⟩
    change ((graph.kindOf id).mapError Failure.ofQuery >>= fun kind => _) = _
    rw [hkind]
    rfl

section readOnly
variable (hread : Files.ReadOnly world)
include hread

theorem unchanged_ofFile (strict : Bool) (file : String) :
    ((Graph.ofFile strict file : StateM σ _).run world).2 = world := by
  have htext : ((Files.readText file : StateM σ _).run world).2 = world := by
    refine unchanged_bind (hread file) fun bytes => ?_
    cases bytes with
    | error error => rfl
    | ok bytes =>
      dsimp only
      cases String.fromUTF8? bytes <;> rfl
  have hpayload : ((Files.readPayload file : StateM σ _).run world).2 = world :=
    unchanged_bind htext fun _ => rfl
  refine unchanged_bind hpayload fun text => ?_
  cases text <;> rfl

theorem checkFile_cases (strict : Bool) (file : String) :
    ∃ result, (Check.checkFile strict file : StateM σ _).run world = (⟨file, result⟩, world) ∧
      ((∃ graph, result = .ok graph) ∧ Loads world strict file ∨
        ∃ failure, result = .error failure ∧ FailsToLoad world strict file failure) := by
  have hfile : (Graph.ofFile strict file : StateM σ _).run world =
      (Graph.readFrom world strict file, world) :=
    Prod.ext rfl (unchanged_ofFile hread strict file)
  unfold Check.checkFile Graph.walkableOfFile
  rw [StateT.run_bind, StateT.run_bind, hfile]
  cases hresult : Graph.readFrom world strict file with
  | error error => exact ⟨_, rfl, .inr ⟨_, rfl, .unread hresult⟩⟩
  | ok read =>
    obtain ⟨names, graph⟩ := read
    have hclosed : graph.Closed := (Graph.assembled_of_readFrom hresult).closed
    refine ⟨graph.walkable file, rfl, ?_⟩
    rcases Graph.walkable_cases hclosed file with ⟨hok, hacyclic⟩ | ⟨id, kind, hcycle, hkind, herror⟩
    · exact .inl ⟨⟨graph, hok⟩, names, graph, hresult, hacyclic⟩
    · exact .inr ⟨_, herror, .circular hresult hcycle hkind⟩

end readOnly

end loading

namespace Diagnostics

theorem entries_foldl_merge (all : List Diagnostics) (found : Diagnostics) :
    (all.foldl .merge found).entries = found.entries ++ all.flatMap Diagnostics.entries := by
  induction all generalizing found with
  | nil => rw [List.foldl_nil, List.flatMap_nil, List.append_nil]
  | cons first all ih => rw [List.foldl_cons, ih, merge, List.flatMap_cons, List.append_assoc]

end Diagnostics

namespace Check

theorem findings_cons (checked : Checked) (all : List Checked) :
    findings (checked :: all) = ⟨checked.findings.entries ++ (findings all).entries⟩ := by
  have hentries (all : List Checked) :
      (findings all).entries = (all.map Checked.findings).flatMap Diagnostics.entries := by
    rw [findings, Diagnostics.entries_foldl_merge]
    rfl
  rw [hentries all, ← List.flatMap_cons, ← List.map_cons, ← hentries]

section accounts
variable {σ : Type} [Files (StateM σ)] {world : σ} {strict : Bool} {file : String}
  {files : List String} {found : Diagnostics}

open Classical in
/-- What is found accounts for some files: each that cannot be loaded has its error, in the order of
the files, and the errors together with the files that can be loaded are as many as the files. -/
structure Accounts (world : σ) (strict : Bool) (files : List String) (found : Diagnostics) :
    Prop where
  failing : found.entries.map Diagnostic.file = files.filter fun file => ¬ Loads world strict file
  errors : ∀ entry ∈ found.entries, entry.severity = .error ∧
    ∃ failure, FailsToLoad world strict entry.file failure ∧ entry.message = failure.summary
  counts : found.errorCount + files.countP (fun file => Loads world strict file) = files.length

namespace Accounts

theorem nil (world : σ) (strict : Bool) : Accounts world strict [] {} :=
  ⟨rfl, nofun, rfl⟩

theorem loaded (h : Accounts world strict files found) (hloads : Loads world strict file) :
    Accounts world strict (file :: files) found where
  failing := by
    rw [List.filter_cons_of_neg (by simpa using hloads)]
    exact h.failing
  errors := h.errors
  counts := by
    rw [List.countP_cons_of_pos (by simpa using hloads), List.length_cons, ← h.counts]
    rfl

theorem failed (h : Accounts world strict files found) {failure : Failure}
    (hfails : FailsToLoad world strict file failure) :
    Accounts world strict (file :: files) ⟨⟨file, failure.summary, .error⟩ :: found.entries⟩ where
  failing := by
    rw [List.filter_cons_of_pos (by simpa using hfails.not_loads), List.map_cons, h.failing]
  errors := List.forall_mem_cons.2 ⟨⟨rfl, failure, hfails, rfl⟩, h.errors⟩
  counts := by
    have hcount : Diagnostics.errorCount ⟨⟨file, failure.summary, .error⟩ :: found.entries⟩ =
        found.errorCount + 1 := List.countP_cons_of_pos rfl
    rw [List.countP_cons_of_neg (by simpa using hfails.not_loads), List.length_cons, ← h.counts,
      hcount, Nat.add_right_comm]

theorem errorCount_le (h : Accounts world strict files found) :
    found.errorCount ≤ files.length := by
  have hcounts := h.counts
  omega

theorem errorCount_eq_zero_iff (h : Accounts world strict files found) :
    found.errorCount = 0 ↔ ∀ file ∈ files, Loads world strict file := by
  classical
  have hall : files.countP (fun file => Loads world strict file) = files.length ↔
      ∀ file ∈ files, Loads world strict file := by
    rw [List.countP_eq_length]
    simp only [decide_eq_true_eq]
  have hcounts := h.counts
  rw [← hall]
  omega

end Accounts

def checked (world : σ) (strict : Bool) (file : String) : Checked :=
  ((checkFile strict file : StateM σ _).run world).1

theorem checked_of_readFrom {names : List String} {graph : Graph}
    (h : Graph.readFrom world strict file = .ok (names, graph)) :
    checked world strict file = ⟨file, graph.walkable file⟩ := by
  unfold Graph.readFrom at h
  unfold checked checkFile Graph.walkableOfFile
  rcases hread : (Graph.ofFile strict file : StateM σ _).run world with ⟨read, after⟩
  rw [hread] at h
  subst h
  rw [StateT.run_bind, StateT.run_bind, hread]
  rfl

theorem findings_checked_cases (hread : Files.ReadOnly world) (strict : Bool) (file : String) :
    Loads world strict file ∧ (checked world strict file).findings.entries = [] ∨
      ∃ failure, FailsToLoad world strict file failure ∧
        (checked world strict file).findings.entries = [⟨file, failure.summary, .error⟩] := by
  obtain ⟨result, hrun, hresult⟩ := checkFile_cases hread strict file
  rw [checked, hrun]
  rcases hresult with ⟨⟨graph, rfl⟩, hloads⟩ | ⟨failure, rfl, hfails⟩
  · exact .inl ⟨hloads, rfl⟩
  · exact .inr ⟨failure, hfails, rfl⟩

def foundIn (world : σ) (strict : Bool) (files : List String) : Diagnostics :=
  findings (files.map (checked world strict))

theorem accounts_foundIn (hread : Files.ReadOnly world) (strict : Bool) (files : List String) :
    Accounts world strict files (foundIn world strict files) := by
  induction files with
  | nil => exact .nil world strict
  | cons file files ih =>
    rw [foundIn, List.map_cons, findings_cons]
    rcases findings_checked_cases hread strict file with ⟨hloads, hnone⟩ | ⟨failure, hfails, hone⟩
    · rw [hnone]
      exact ih.loaded hloads
    · rw [hone]
      exact ih.failed hfails

theorem run_checkFiles [Parallel (StateM σ)] (hparallel : Parallel.KeepsOrder σ)
    (hread : Files.ReadOnly world) (parallel strict : Bool) (files : List String) :
    (checkFiles parallel strict files : StateM σ _).run world =
      (files.map (checked world strict), world) := by
  have hunchanged : ∀ file ∈ files, ((checkFile strict file : StateM σ _).run world).2 = world := by
    intro file _
    obtain ⟨result, hrun, -⟩ := checkFile_cases hread strict file
    rw [hrun]
  unfold checkFiles
  cases parallel with
  | true => exact hparallel _ files world hunchanged
  | false => exact run_mapM_of_unchanged hunchanged

open Classical in
noncomputable def tally (world : σ) (strict : Bool) (files : List String) (time : String) : String :=
  toString (files.countP fun file => Loads world strict file) ++ " of " ++
    toString files.length ++ " payload(s) ok in " ++ time

open Classical in
/-- What a check of some files comes to: the errors in the format of the report, a line with the
numbers of files, and an exit code. -/
structure Concludes (world : σ) (strict : Bool) (files : List String) (setup : Setup)
    (time : String) (outcome : Outcome) : Prop where
  accounts : Accounts world strict files (foundIn world strict files)
  fits : (foundIn world strict files).errorCount ≤ files.length
  code : outcome.code = if ∀ file ∈ files, Loads world strict file then 0 else 1
  stdout : ∃ written, Shows setup.style.format (foundIn world strict files).entries written ∧
    outcome.stdout = written ++
      if setup.shouldPrint = true ∧ ∀ file ∈ files, Loads world strict file then
        Text.paint setup.style.color .green "✅" ++ " " ++
          Text.paint setup.style.color .green (tally world strict files time) ++ "\n"
      else ""
  stderr : outcome.stderr =
    if setup.shouldPrint = true ∧ ¬ ∀ file ∈ files, Loads world strict file then
      Text.paint setup.style.color .red "❌" ++ " " ++
        Text.paint setup.style.color .red (tally world strict files time) ++ "\n"
    else ""

theorem concludes_outcome (setup : Setup) (time : String)
    (h : Accounts world strict files (foundIn world strict files)) :
    Concludes world strict files setup time
      (outcome setup.style setup.shouldPrint time (files.map (checked world strict))) := by
  classical
  have hzero := h.errorCount_eq_zero_iff
  have htally : summary (files.map (checked world strict)).length
      (foundIn world strict files).errorCount time = tally world strict files time := by
    have hcounts := h.counts
    have hloaded : files.length - (foundIn world strict files).errorCount =
        files.countP fun file => Loads world strict file := by omega
    rw [summary, List.length_map, hloaded, tally]
  have hshows := shows_report setup.style (foundIn world strict files) fun entry hentry =>
    (h.errors entry hentry).1
  rw [foundIn] at hzero htally hshows
  refine ⟨h, h.errorCount_le, ?_, ⟨_, hshows, ?_⟩, ?_⟩
  · simp only [outcome, hzero]
  · simp only [outcome, hzero, htally, Bool.and_eq_true, decide_eq_true_eq]
    rfl
  · simp only [outcome, ne_eq, hzero, htally, Bool.and_eq_true, decide_eq_true_eq]
    rfl

end accounts

end Check

def RawGraph.toPayload (raw : RawGraph) : GraphPayload :=
  { success := true, files := [], graph? := some raw, complaints? := none }

def RawGraph.toFile (raw : RawGraph) : ByteArray :=
  (Shaped.toJson raw.toPayload).compress.toUTF8

section directory
variable {dir : Directory} {raw : RawGraph} {graph : Graph} {file : String} {strict : Bool}

theorem Directory.readFrom_toFile (hfile : dir.read file = .ok raw.toFile)
    (hexact : ∀ node ∈ raw.nodes, (Json.obj node.body).Exact)
    (hdepth : (Shaped.toJson raw.toPayload).depth ≤ Reader.maxDepth)
    (hlink : raw.link strict = .ok graph) : Graph.readFrom dir strict file = .ok ([], graph) := by
  have hpayload : raw.toPayload.Exact := by
    rintro _ ⟨⟩
    exact hexact
  have hdecode : Shaped.decodeText file (Shaped.toJson raw.toPayload).compress =
      .ok raw.toPayload :=
    (Shaped.readsBack GraphPayload.clear (GraphPayload.exact_toCarrier hpayload) hdepth).compress file
  have hread : (Files.read file : StateM Directory _).run dir = (.ok raw.toFile, dir) :=
    congrArg (·, dir) hfile
  have hmark : (Shaped.toJson raw.toPayload).compress.toList.dropWhile (· = Files.byteOrderMark) =
      (Shaped.toJson raw.toPayload).compress.toList := by
    rw [Json.compress, String.toList_ofList]
    rfl
  rw [Graph.readFrom_of_read hread hmark, Graph.ofText, hdecode]
  change (raw.link strict).mapError LoadError.link >>= _ = _
  rw [hlink]
  rfl

end directory

theorem RawGraph.exact_enclosing (again : Bool) :
    ∀ node ∈ (RawGraph.enclosing again).nodes, (Json.obj node.body).Exact := by
  have hnat (n : Nat) (h : n < UInt64.size) : (Json.nat n).Exact :=
    .int (by omega) (Int.ofNat_lt.2 h)
  have hpair (n m : Nat) (hn : n < UInt64.size) (hm : m < UInt64.size) :
      (Json.arr [.nat n, .nat m]).Exact :=
    .arr (List.forall_mem_cons.2 ⟨hnat n hn, List.forall_mem_singleton.2 (hnat m hm)⟩)
  simp only [RawGraph.enclosing, List.forall_mem_cons]
  refine ⟨.obj (List.pairwise_singleton _ _) (List.forall_mem_singleton.2 ?_),
    .obj .nil nofun,
    .obj (List.pairwise_singleton _ _) (List.forall_mem_singleton.2 (hnat 1 (by decide))), nofun⟩
  cases again with
  | false => exact hpair 2 1 (by decide) (by decide)
  | true => exact hpair 2 0 (by decide) (by decide)

section run
variable {σ : Type} [Files (StateM σ)] [Parallel (StateM σ)] {paths files : List String}
  {before world : σ}

theorem Command.run_check (hparallel : Parallel.KeepsOrder σ) (setup : Setup)
    (elapsed : StateM σ String) (strict : Bool)
    (hfiles : (Check.payloads paths : StateM σ _).run before = (.ok files, world))
    (hread : Files.ReadOnly world) :
    (Command.run setup elapsed (.check paths strict)).run before =
      (.ok (Check.outcome setup.style setup.shouldPrint (elapsed.run world).1
        ((Path.sort files).map (Check.checked world (setup.settings.strictFields || strict)))),
        (elapsed.run world).2) := by
  have hchecked := Check.run_checkFiles hparallel hread setup.settings.parallel
    (setup.settings.strictFields || strict) (Path.sort files)
  unfold Command.run Check.run
  rw [StateT.run_bind, hfiles]
  change (Check.checkFiles _ _ _ >>= fun all => _ : StateM σ _).run world = _
  rw [StateT.run_bind, hchecked]
  rfl

/-- A check of the files that some paths stand for reports each that cannot be loaded, in sorted
order, whether the files are checked at once or not. -/
theorem Command.run_check_concludes (hparallel : Parallel.KeepsOrder σ) (setup : Setup)
    (elapsed : StateM σ String) (strict : Bool)
    (hfiles : (Check.payloads paths : StateM σ _).run before = (.ok files, world))
    (hread : Files.ReadOnly world) :
    (Path.sort files).Perm files ∧
      (Path.sort files).Pairwise (fun p q => Path.le (Path.components p) (Path.components q)) ∧
      ∃ outcome,
        (Command.run setup elapsed (.check paths strict)).run before =
          (.ok outcome, (elapsed.run world).2) ∧
        Check.Concludes world (setup.settings.strictFields || strict) (Path.sort files) setup
          (elapsed.run world).1 outcome := by
  refine ⟨Path.sort_perm files, Path.sort_sorted files, _,
    run_check hparallel setup elapsed strict hfiles hread, ?_⟩
  exact Check.concludes_outcome setup _ (Check.accounts_foundIn hread _ (Path.sort files))

end run

/-- A graph with a cycle, a graph without one, and a payload that is cut short. -/
def Directory.mixed : Directory where
  files := [
    (["notes.txt"], ByteArray.empty),
    (["loop.json"], (RawGraph.enclosing true).toFile),
    (["old", "kept.json"], (RawGraph.enclosing false).toFile),
    (["cut.json"], "\x7b".toUTF8)]

/-- The payloads among these files, in order. Two of them are named twice. -/
def Directory.mixedFiles : List String :=
  ["./cut.json", "./loop.json", "./old/kept.json", "cut.json", "old/kept.json"]

def Directory.mixedErrors : List Diagnostic := [
  ⟨"./cut.json",
    "Failed to load ./cut.json: error: EOF while parsing an object\n./cut.json:1:1:\n\x7b", .error⟩,
  ⟨"./loop.json", "Failed to load ./loop.json: Program #0 is its own descendant", .error⟩,
  ⟨"cut.json",
    "Failed to load cut.json: error: EOF while parsing an object\ncut.json:1:1:\n\x7b", .error⟩]

theorem Directory.foundIn_mixed :
    (Check.foundIn Directory.mixed false Directory.mixedFiles).entries = Directory.mixedErrors := by
  have hkept (file : String) (h : Directory.mixed.read file = .ok (RawGraph.enclosing false).toFile) :
      (Check.checked Directory.mixed false file).findings.entries = [] := by
    obtain ⟨graph, hlink, hwalkable⟩ : ∃ graph, (RawGraph.enclosing false).link false = .ok graph ∧
        graph.walkable file = .ok graph := ⟨_, rfl, rfl⟩
    have hread := Directory.readFrom_toFile h (RawGraph.exact_enclosing false) (by decide) hlink
    rw [Check.checked_of_readFrom hread, hwalkable]
    rfl
  have hloop : (Check.checked Directory.mixed false "./loop.json").findings.entries =
      [⟨"./loop.json", "Failed to load ./loop.json: Program #0 is its own descendant", .error⟩] := by
    obtain ⟨graph, hlink, hwalkable⟩ : ∃ graph, (RawGraph.enclosing true).link false = .ok graph ∧
        graph.walkable "./loop.json" =
          .error ⟨"Failed to load ./loop.json: Program #0 is its own descendant", []⟩ :=
      ⟨_, rfl, rfl⟩
    have hfile : Directory.mixed.read "./loop.json" = .ok (RawGraph.enclosing true).toFile := rfl
    have hread := Directory.readFrom_toFile hfile (RawGraph.exact_enclosing true) (by decide) hlink
    rw [Check.checked_of_readFrom hread, hwalkable]
    rfl
  have hcut : (Check.checked Directory.mixed false "./cut.json").findings.entries =
      [⟨"./cut.json",
        "Failed to load ./cut.json: error: EOF while parsing an object\n./cut.json:1:1:\n\x7b",
        .error⟩] := by
    set_option maxRecDepth 10000 in with_unfolding_all rfl
  have hcut' : (Check.checked Directory.mixed false "cut.json").findings.entries =
      [⟨"cut.json",
        "Failed to load cut.json: error: EOF while parsing an object\ncut.json:1:1:\n\x7b",
        .error⟩] := by
    set_option maxRecDepth 10000 in with_unfolding_all rfl
  rw [Check.foundIn, Directory.mixedFiles]
  simp only [List.map_cons, List.map_nil, Check.findings_cons, hcut, hcut', hloop,
    hkept "./old/kept.json" rfl, hkept "old/kept.json" rfl]
  rfl

theorem Directory.sort_mixed :
    Path.sort ["old/kept.json", "cut.json", "./loop.json", "./old/kept.json", "./cut.json"] =
      Directory.mixedFiles := by
  have hperm := (Path.sort_perm ["old/kept.json", "cut.json", "./loop.json", "./old/kept.json",
    "./cut.json"]).trans (by decide +kernel : List.Perm _ Directory.mixedFiles)
  have hantisymm : ∀ p ∈ Directory.mixedFiles, ∀ q ∈ Directory.mixedFiles,
      Path.le (Path.components p) (Path.components q) = true →
      Path.le (Path.components q) (Path.components p) = true → p = q := by decide +kernel
  refine hperm.eq_of_pairwise (fun p q hp => ?_) (Path.sort_sorted _) (by decide +kernel)
  exact hantisymm p (hperm.mem_iff.1 hp) q

theorem Directory.outcome_mixed (format : ReportFormat) :
    Check.outcome { format := format } true "3ms"
        (Directory.mixedFiles.map (Check.checked Directory.mixed false)) =
      ⟨1, Check.report { format := format } ⟨Directory.mixedErrors⟩,
        "❌ 2 of 5 payload(s) ok in 3ms\n"⟩ := by
  have hfound : Check.findings (Directory.mixedFiles.map (Check.checked Directory.mixed false)) =
      ⟨Directory.mixedErrors⟩ := congrArg Diagnostics.mk Directory.foundIn_mixed
  have hcount : Diagnostics.errorCount ⟨Directory.mixedErrors⟩ = 3 := rfl
  rw [Check.outcome, hfound, List.length_map, hcount, Outcome.mk.injEq]
  exact ⟨rfl, String.append_empty, rfl⟩

open Classical in
theorem Command.run_check_concludes_mixed :
    (Check.payloads ["old", "cut.json", "."] : StateM Directory _).run .mixed =
        (.ok ["old/kept.json", "cut.json", "./loop.json", "./old/kept.json", "./cut.json"],
          .mixed) ∧
      Parallel.KeepsOrder Directory ∧ Files.ReadOnly Directory.mixed ∧
      Directory.mixedFiles.filter (fun file => ¬ Loads Directory.mixed false file) =
        ["./cut.json", "./loop.json", "cut.json"] ∧
      ∀ format : ReportFormat, ∃ stdout,
        (Command.run ⟨{}, { format := format }, true⟩ (pure "3ms")
            (.check ["old", "cut.json", "."] false) : StateM Directory _).run .mixed =
          (.ok ⟨1, stdout, "❌ 2 of 5 payload(s) ok in 3ms\n"⟩, .mixed) ∧
        (format = .text → stdout =
          "[error] ./cut.json: Failed to load ./cut.json: error: EOF while parsing an object\n" ++
          "./cut.json:1:1:\n\x7b\n" ++
          "[error] ./loop.json: Failed to load ./loop.json: Program #0 is its own descendant\n" ++
          "[error] cut.json: Failed to load cut.json: error: EOF while parsing an object\n" ++
          "cut.json:1:1:\n\x7b\n\n") ∧
        Check.Shows format Directory.mixedErrors stdout ∧
        Check.Concludes Directory.mixed false Directory.mixedFiles
          ⟨{}, { format := format }, true⟩ "3ms"
          ⟨1, stdout, "❌ 2 of 5 payload(s) ok in 3ms\n"⟩ := by
  have hfiles : (Check.payloads ["old", "cut.json", "."] : StateM Directory _).run .mixed =
      (.ok ["old/kept.json", "cut.json", "./loop.json", "./old/kept.json", "./cut.json"],
        .mixed) := by
    with_unfolding_all rfl
  have hparallel : Parallel.KeepsOrder Directory := Parallel.keepsOrder_one_by_one Directory
  have hread : Files.ReadOnly Directory.mixed := fun path => rfl
  have hfailing := (Check.accounts_foundIn hread false Directory.mixedFiles).failing
  rw [Directory.foundIn_mixed] at hfailing
  refine ⟨hfiles, hparallel, hread, hfailing.symm, fun format => ?_⟩
  obtain ⟨-, -, outcome, hrun, hconcludes⟩ := Command.run_check_concludes hparallel
    ⟨{}, { format := format }, true⟩ (pure "3ms") false hfiles hread
  -- Another look at the run tells which outcome this is.
  have hpinned := Command.run_check hparallel ⟨{}, { format := format }, true⟩ (pure "3ms") false
    hfiles hread
  rw [Directory.sort_mixed] at hpinned hconcludes
  change _ = (Except.ok (Check.outcome { format := format } true "3ms"
    (Directory.mixedFiles.map (Check.checked Directory.mixed false))), Directory.mixed) at hpinned
  rw [Directory.outcome_mixed] at hpinned
  cases hrun.symm.trans hpinned
  refine ⟨_, hpinned, ?_, ?_, hconcludes⟩
  · rintro rfl
    decide +kernel
  · exact Check.shows_report { format := format } ⟨Directory.mixedErrors⟩ (by decide)

end FormatGraph

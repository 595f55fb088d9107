import PageFlattening.Command.Run
import PageFlattening.Proofs.Assembling
import PageFlattening.Proofs.Directory

/-! What a command line comes to. The parser lets only presets through that there are, so that a
configuration is rejected for one of three numbers at most. What happens after that is decided by
the names of the files and the number of workers, before the first page is written. -/
namespace PageFlattening

namespace Document

variable {K : Type} [Scalar K]

theorem imageFiles_isEmpty_iff {files : List FileEntry} :
    (imageFiles imageExtensions files).isEmpty = false ↔
      ∃ f ∈ files, hasExtension imageExtensions f.name = true := by
  simp only [imageFiles, List.isEmpty_eq_false_iff_exists_mem, List.mem_mergeSort, List.mem_filter]

theorem create_eq_map (preset : String) (entries : List (String × Value K)) (workers : Option Int)
    (counter : ColumnCounter) : create preset entries workers counter =
      (Preset.collection preset entries).map fun c => ⟨c, c.settings.build, workers, counter⟩ := by
  rw [create, Preset.collection]
  cases Preset.configured preset entries none with
  | error fault => rfl
  | ok draft =>
      change (Collection.ofDraft draft >>= fun c => pure _) = (Collection.ofDraft draft).map _
      cases Collection.ofDraft draft <;> rfl

/-- A document that was just opened gives up a directory only for want of workers, and only if there
is an image. -/
theorem flattenFiles_stops_iff {preset : String} {entries : List (String × Value K)}
    {workers : Option Int} {counter : ColumnCounter} {d : Document K}
    (opened : create preset entries workers counter = .ok d) (files : List FileEntry) :
    (d.flattenFiles imageExtensions files).fault ≠ none ↔
      (∃ n ∈ workers, n ≤ 0) ∧ ∃ f ∈ files, hasExtension imageExtensions f.name = true := by
  by_cases idle : ∃ n ∈ workers, n ≤ 0
  -- The pages are refused before the first of them is built, if there are any.
  · obtain ⟨settings, size, rfl⟩ := create_eq opened
    have unstaffed : workers.any (· ≤ 0) = true := by
      obtain ⟨n, given, none⟩ := idle
      rw [Option.mem_def.mp given, Option.any_some]
      exact decide_eq_true none
    rw [and_iff_right idle, ← imageFiles_isEmpty_iff, flattenFiles]
    cases (imageFiles imageExtensions files).isEmpty with
    | true => simp
    | false => simp [Batch.build, addPages, announce, unstaffed]
  · have workforce : ∀ n, workers = some n → 0 < n :=
      fun n given => not_le.mp fun none => idle ⟨n, given, none⟩
    obtain ⟨after, b, -, done, -⟩ :=
      flattenFiles_done (create_sound opened workforce) (create_passing opened) files
    rw [done]
    exact iff_of_false (fun stopped => stopped rfl) fun both => idle both.1

end Document

namespace Preset

variable {K : Type} [Scalar K]

theorem exists_of_mem_names {name : String} (listed : name ∈ names) :
    ∃ p ∈ all, find name = .ok p := by
  obtain ⟨q, member, same⟩ := List.mem_map.mp listed
  cases found : all.find? fun p => p.name == name with
  | none => exact absurd (beq_iff_eq.mpr same) (List.find?_eq_none.mp found q member)
  | some p =>
      refine ⟨p, List.mem_of_find?_eq_some found, ?_⟩
      rw [find, found]

theorem exists_draft_settings {p : Preset} (listed : p ∈ all) :
    ∃ s, (p.draft : Draft K).settings = .ok (s, Draft.standardCacheSize) := by
  simp only [all, List.mem_cons, List.not_mem_nil, or_false] at listed
  rcases listed with rfl | rfl | rfl | rfl <;> exact ⟨_, rfl⟩

end Preset

namespace Command

/-! ### What the parser lets through -/

structure Progress.Offered (p : Progress) : Prop where
  preset : p.preset ∈ Preset.names
  reduction : ∀ n ∈ p.reduction, n = 1 ∨ n = 2

theorem Progress.Offered.take {p q : Progress} {opt : Opt} {v : String} (h : p.Offered)
    (taken : take p opt v = .ok q) : q.Offered := by
  cases opt with
  | help => cases taken
  | inputDir | outputDir | verticalOnly | checkColumns =>
      cases taken
      exact ⟨h.preset, h.reduction⟩
  | preset =>
      obtain ⟨name, chosen, same⟩ := exists_of_bind_eq_ok taken
      cases same
      rw [choice] at chosen
      split at chosen
      · rename_i listed
        cases chosen
        exact ⟨List.contains_iff_mem.mp listed, h.reduction⟩
      · cases chosen
  | reduction =>
      obtain ⟨n, -, same⟩ := exists_of_bind_eq_ok taken
      split at same
      · rename_i known
        cases same
        exact ⟨h.preset, fun m given => Option.mem_some_iff.mp given ▸ known⟩
      · cases same
  | stride | minLines | maxDistance | workers | device =>
      obtain ⟨n, -, same⟩ := exists_of_bind_eq_ok taken
      cases same
      exact ⟨h.preset, h.reduction⟩

theorem Progress.Offered.consume {p q : Progress} {tokens : List (String × Token)} (h : p.Offered)
    (read : consume p tokens = .ok q) : q.Offered := by
  fun_induction Command.consume p tokens with
  | case1 =>
      cases read
      exact h
  | case2 | case4 | case6 => cases read
  -- An option with its value attached, with the value behind it, and without one.
  | case3 _ _ _ _ _ _ ih | case5 _ _ _ _ _ _ ih | case7 _ _ _ _ _ ih =>
      obtain ⟨next, taken, read⟩ := exists_of_bind_eq_ok read
      exact ih next (h.take taken) read
  -- What is left over is only marked.
  | case8 _ _ _ ih | case9 _ _ _ ih | case10 _ _ _ ih => exact ih ⟨h.preset, h.reduction⟩ read

theorem offered_of_parse {arguments : List String} {o : Options}
    (parsed : parse arguments = .ok o) :
    o.preset ∈ Preset.names ∧ ∀ n ∈ o.reduction, n = 1 ∨ n = 2 := by
  obtain ⟨tokens, -, rest⟩ := exists_of_bind_eq_ok parsed
  obtain ⟨progress, read, finished⟩ := exists_of_bind_eq_ok rest
  have start : Progress.Offered {} := ⟨by decide, by simp⟩
  have offered := start.consume read
  rw [Progress.finish] at finished
  split at finished
  · cases finished
    exact ⟨offered.preset, offered.reduction⟩
  · cases finished

/-! ### The configuration -/

section Configuration

variable {K : Type}

structure Options.Accepted (o : Options) : Prop where
  stride : ∀ n ∈ o.stride, 8 ≤ n
  minLines : ∀ n ∈ o.minLines, 4 ≤ n
  maxDistance : ∀ n ∈ o.maxDistance, 0 ≤ n

def Options.given (o : Options) : Choice → Option (Value K)
  | .stride => o.stride.map .int
  | .reduction => o.reduction.map .int
  | .minLines => o.minLines.map .int
  | .maxDistance => o.maxDistance.map .int
  | .useBoth => some (.bool !o.verticalOnly)
  | .checkColumns => some (.bool o.checkColumns)
  | _ => none

variable [Scalar K]

def Options.draft (o : Options) (p : Preset) : Draft K := (p.draft.override o.entries).state

/-- The document is that of a collection with the settings replaced that a command line gives. -/
structure Options.Configures (o : Options) (base : Collection K) (d : Document K) : Prop where
  stride : (d.collection.settings.build.stride : Int) = o.stride.getD base.settings.build.stride
  reduction : (d.collection.settings.build.reduction : Int) =
    o.reduction.getD base.settings.build.reduction
  minLines : (d.collection.settings.build.minLines : Int) =
    o.minLines.getD base.settings.build.minLines
  maxDistance : (d.collection.settings.maxDistance : Int) =
    o.maxDistance.getD base.settings.maxDistance
  useBoth : d.collection.settings.useBoth = !o.verticalOnly
  checkColumns : d.collection.settings.checkColumns = o.checkColumns
  thresholds : d.collection.settings.thresholds = base.settings.thresholds
  rest : d.collection = { base with settings := d.collection.settings }
  build : d.build = d.collection.settings.build
  workers : d.workers = o.workers
  counter : d.counter = standardCounter K

omit [Scalar K] in
theorem entry?_number (name other : String) (v : Option Int) :
    Value.entry? (v.toList.map fun n => (name, (.int n : Value K))) other =
      if name = other then v.map .int else none := by
  cases v with
  | none => simp
  | some n => simp [Value.entry?_cons]

theorem entries_names (o : Options) :
    ((o.entries : List (String × Value K)).map (·.1)).Sublist Draft.parameterNames := by
  have number : ∀ (name : String) (v : Option Int),
      ((v.toList.map fun n => (name, (.int n : Value K))).map (·.1)).Sublist [name] := by
    intro name v
    cases v <;> simp
  have rest : ["useboth", "check_columns"].Sublist ["useboth", "check_columns", "cache_size"] :=
    List.sublist_append_left _ ["cache_size"]
  simp only [Options.entries, List.map_append]
  exact ((((number _ _).append (number _ _)).append (number _ _)).append (number _ _)).append rest

theorem entry?_entries_of_foreign (o : Options) {name : String}
    (foreign : name ∉ Draft.parameterNames) :
    Value.entry? (o.entries : List (String × Value K)) name = none := by
  refine Value.entry?_eq_none_iff.mpr fun e member same => foreign ?_
  exact same ▸ (entries_names o).subset (List.mem_map_of_mem member)

theorem latest?_entries (o : Options) (name : String) :
    Value.latest? (o.entries : List (String × Value K)) name = Value.entry? o.entries name :=
  Value.latest?_of_nodup ((entries_names o).nodup (by decide)) name

theorem splitLimits_entries (o : Options) :
    (Draft.splitLimits (o.entries : List (String × Value K))).1 = .null := by
  rw [Draft.splitLimits, entry?_entries_of_foreign o (by decide)]
  rfl

theorem handed_entries (o : Options) (x : Choice) :
    Draft.handed (o.entries : List (String × Value K)) x = o.given x := by
  cases x with
  | limit l =>
      rw [Draft.handed, splitLimits_entries]
      rfl
  | _ =>
      simp only [Draft.handed, Draft.splitLimits, Value.latest?_dropEntry, latest?_entries,
        Choice.name]
      simp [Options.entries, Value.entry?_append, entry?_number, Value.entry?_cons, Options.given]

theorem collection_entries (o : Options) {p : Preset} (found : Preset.find o.preset = .ok p) :
    Preset.collection o.preset (o.entries : List (String × Value K)) =
      Collection.ofDraft (o.draft p) := by
  have table : Draft.table? (o.entries : List (String × Value K)) = some [] := by
    rw [Draft.table?, splitLimits_entries]
  refine Preset.collection_eq found table ?_
  rw [latest?_entries, entry?_entries_of_foreign o (by decide)]

def leastNumbers : List (Choice × Int) := [(.stride, 8), (.minLines, 4), (.maxDistance, 0)]

theorem check_number_eq_ok_iff {x : Choice} {least : Int} (bounded : (x, least) ∈ leastNumbers)
    {n : Int} {m : Nat} : x.check (.int n : Value K) = .ok m ↔ least ≤ n ∧ n.toNat = m := by
  simp only [leastNumbers, List.mem_cons, Prod.mk.injEq, List.not_mem_nil, or_false] at bounded
  rcases bounded with ⟨rfl, rfl⟩ | ⟨rfl, rfl⟩ | ⟨rfl, rfl⟩
  · have range : 8 ≤ n.toNat ↔ 8 ≤ n := by omega
    rw [Choice.check, BuildSettings.checkStride, ← range]
    split <;> simp_all [Except.map]
  · have range : 4 ≤ n.toNat ↔ 4 ≤ n := by omega
    rw [Choice.check, BuildSettings.checkMinLines, ← range]
    split <;> simp_all [Except.map]
  · rw [Choice.check, checkMaxDistance, checkNatural, ← not_lt]
    split <;> simp_all

def Options.chosen (o : Options) : Choice → Option Nat
  | .stride => o.stride.map Int.toNat
  | .reduction => o.reduction.map Int.toNat
  | .minLines => o.minLines.map Int.toNat
  | .maxDistance => o.maxDistance.map Int.toNat
  | .useBoth => some (!o.verticalOnly).toNat
  | .checkColumns => some o.checkColumns.toNat
  | _ => none

theorem check_given {o : Options} (accepted : o.Accepted)
    (reduced : ∀ n ∈ o.reduction, n = 1 ∨ n = 2) (x : Choice) :
    (o.given x : Option (Value K)).map x.check = (o.chosen x).map .ok := by
  have number : ∀ (x : Choice) (v : Option Int),
      (∀ n ∈ v, x.check (.int n : Value K) = .ok n.toNat) →
      (v.map (.int : Int → Value K)).map x.check = (v.map Int.toNat).map .ok := by
    intro x v passes
    cases v with
    | none => rfl
    | some n => exact congrArg some (passes n rfl)
  have bounded : ∀ {x : Choice} {least n : Int},
      (x, least) ∈ leastNumbers → least ≤ n → x.check (.int n : Value K) = .ok n.toNat :=
    fun member inRange => (check_number_eq_ok_iff member).mpr ⟨inRange, rfl⟩
  cases x with
  | stride =>
      exact number .stride _ fun n given => bounded (by decide) (accepted.stride n given)
  | minLines =>
      exact number .minLines _ fun n given => bounded (by decide) (accepted.minLines n given)
  | maxDistance =>
      exact number .maxDistance _ fun n given => bounded (by decide) (accepted.maxDistance n given)
  | reduction =>
      refine number .reduction _ fun n given => ?_
      rcases reduced n given with rfl | rfl <;> rfl
  | _ => rfl

section Preset

variable {o : Options} {p : Preset} {s : Settings} {size : Nat}
  (plain : (p.draft : Draft K).settings = .ok (s, size))

include plain

theorem judged_draft (o : Options) (x : Choice) : (o.draft p : Draft K).judged x =
    ((o.given x : Option (Value K)).map x.check).getD (.ok (x.read s size)) := by
  rw [Options.draft, Draft.override_judged, handed_entries, (Draft.judged_of_settings plain).2.2]

theorem accepted_of_settings {r : Settings × Nat}
    (made : (o.draft p : Draft K).settings = .ok r) : o.Accepted := by
  have inRange : ∀ {x : Choice} {least n : Int}, (x, least) ∈ leastNumbers →
      (o.given x : Option (Value K)) = some (.int n) → least ≤ n := by
    intro x least n bounded given
    have passed := (Draft.judged_of_settings made).2.2 x
    rw [judged_draft plain, given] at passed
    exact ((check_number_eq_ok_iff bounded).mp passed).1
  have number : ∀ {v : Option Int} {n : Int}, n ∈ v → v.map (Value.int : Int → Value K) =
      some (.int n) := fun given => congrArg (Option.map Value.int) given
  exact ⟨fun n given => inRange (x := .stride) (by decide) (number given),
    fun n given => inRange (x := .minLines) (by decide) (number given),
    fun n given => inRange (x := .maxDistance) (by decide) (number given)⟩

theorem exists_settings_of_accepted (accepted : o.Accepted)
    (reduced : ∀ n ∈ o.reduction, n = 1 ∨ n = 2) :
    ∃ s', (o.draft p : Draft K).settings = .ok (s', size) ∧
      ∀ x, Choice.read s' size x = (o.chosen x).getD (x.read s size) := by
  obtain ⟨known, named, -⟩ := Draft.judged_of_settings plain
  have listed : ∀ e ∈ (Draft.splitLimits (o.entries : List (String × Value K))).2,
      e.1 ∈ Draft.parameterNames := by
    intro e member
    exact (entries_names o).subset (List.mem_map_of_mem (List.mem_of_mem_filter member))
  have unlimited : Thresholds.Named
      (Draft.filed (Draft.splitLimits (o.entries : List (String × Value K))).1) := by
    rw [splitLimits_entries]
    intro e member
    cases member
  have judged : ∀ x, (o.draft p : Draft K).judged x =
      .ok ((o.chosen x).getD (x.read s size)) := by
    intro x
    rw [judged_draft plain, check_given accepted reduced]
    cases o.chosen x <;> rfl
  obtain ⟨s', size', made, read⟩ := Draft.exists_settings
    ((Draft.override_knownParameters _ _).mpr ⟨listed, known⟩)
    ((Draft.override_knownLimits _ _).mpr ⟨unlimited, named⟩) judged s.thresholds.ordered
  cases read .cacheSize
  exact ⟨s', made, read⟩

end Preset

theorem cast_getD {v : Option Int} (natural : ∀ n ∈ v, 0 ≤ n) (m : Nat) :
    (((v.map Int.toNat).getD m : Nat) : Int) = v.getD m := by
  cases v with
  | none => rfl
  | some n => exact Int.toNat_of_nonneg (natural n rfl)

theorem configures {o : Options} {s s' : Settings} {size : Nat} (accepted : o.Accepted)
    (reduced : ∀ n ∈ o.reduction, n = 1 ∨ n = 2)
    (read : ∀ x, Choice.read s' size x = (o.chosen x).getD (x.read s size)) :
    o.Configures (.empty s size : Collection K)
      ⟨.empty s' size, s'.build, o.workers, standardCounter K⟩ where
  stride := by
    refine Eq.trans (congrArg Nat.cast (read .stride)) (cast_getD (fun n given => ?_) _)
    exact le_trans (by decide) (accepted.stride n given)
  reduction := by
    refine Eq.trans (congrArg Nat.cast (read .reduction)) (cast_getD (fun n given => ?_) _)
    rcases reduced n given with rfl | rfl <;> decide
  minLines := by
    refine Eq.trans (congrArg Nat.cast (read .minLines)) (cast_getD (fun n given => ?_) _)
    exact le_trans (by decide) (accepted.minLines n given)
  maxDistance := (congrArg Nat.cast (read .maxDistance)).trans (cast_getD accepted.maxDistance _)
  useBoth := eq_of_toNat (read .useBoth)
  checkColumns := eq_of_toNat (read .checkColumns)
  thresholds := Thresholds.eq_of_limit (funext fun l => read (.limit l))
  rest := rfl
  build := rfl
  workers := rfl
  counter := rfl

theorem exists_base {o : Options} (offered : o.preset ∈ Preset.names)
    (reduced : ∀ n ∈ o.reduction, n = 1 ∨ n = 2) :
    ∃ base : Collection K, Preset.collection o.preset [] = .ok base ∧
      (o.Accepted → ∃ d, Document.create o.preset o.entries o.workers (standardCounter K) = .ok d ∧
        o.Configures base d) ∧
      (¬ o.Accepted → ∃ fault, Document.create o.preset (o.entries : List (String × Value K))
        o.workers (standardCounter K) = .error fault) := by
  obtain ⟨p, listed, found⟩ := Preset.exists_of_mem_names offered
  obtain ⟨s, plain⟩ := Preset.exists_draft_settings (K := K) listed
  have opened : Preset.collection o.preset ([] : List (String × Value K)) =
      .ok (.empty s Draft.standardCacheSize) := by
    rw [Preset.collection_eq found (show Draft.table? [] = some [] from rfl) rfl]
    change Collection.ofDraft p.draft = _
    rw [Collection.ofDraft, plain]
    rfl
  have created : Document.create o.preset (o.entries : List (String × Value K)) o.workers
      (standardCounter K) = (o.draft p : Draft K).settings.map fun r =>
        ⟨.empty r.1 r.2, r.1.build, o.workers, standardCounter K⟩ := by
    rw [Document.create_eq_map, collection_entries o found, Collection.ofDraft]
    cases (o.draft p : Draft K).settings <;> rfl
  refine ⟨_, opened, fun accepted => ?_, fun rejected => ?_⟩
  · obtain ⟨s', made, read⟩ := exists_settings_of_accepted plain accepted reduced
    refine ⟨_, ?_, configures accepted reduced read⟩
    rw [created, made]
    rfl
  · rw [created]
    cases made : (o.draft p : Draft K).settings with
    | error fault => exact ⟨fault, rfl⟩
    | ok r => exact absurd (accepted_of_settings plain made) rejected

end Configuration

/-! ### The run -/

section Run

variable {K : Type} [Scalar K]

section Opened

variable {o : Options} {d : Document K} {files : List FileEntry}
  (opened : Document.create o.preset o.entries o.workers (standardCounter K) = .ok d)

include opened

theorem execute_eq : execute K o files =
    ⟨(d.flattenFiles Document.imageExtensions files).fault.map fun _ => 1,
      some (o.outputDir, (d.flattenFiles Document.imageExtensions files).state.written)⟩ := by
  rw [execute, opened]

theorem execute_of_ok {written : List OutputFile}
    (done : (d.processDirectory Document.imageExtensions files).1 = .ok written) :
    execute K o files = ⟨none, some (o.outputDir, written)⟩ := by
  obtain ⟨ends, same⟩ := Document.processDirectory_eq_ok_iff.mp done
  rw [execute_eq opened, ends, same]
  rfl

theorem exit_eq_none_iff : (execute K o files).exit = none ↔
    ¬ ((∃ n ∈ o.workers, n ≤ 0) ∧
      ∃ f ∈ files, Document.hasExtension Document.imageExtensions f.name = true) := by
  rw [← Document.flattenFiles_stops_iff opened, execute_eq opened, not_not]
  exact Option.map_eq_none_iff

theorem execute_of_exit {code : Nat} (stopped : (execute K o files).exit = some code) :
    execute K o files = ⟨some 1, some (o.outputDir, [])⟩ := by
  rw [execute_eq opened] at stopped ⊢
  obtain ⟨fault, found, rfl⟩ := Option.map_eq_some_iff.mp stopped
  rw [Document.written_of_fault (by simp [found]), found]
  rfl

end Opened

/-- A command line that parses opens a document under its preset, with what it gives in the place of
the preset's own settings. It exits before anything is written, or not at all: for a number out of
its range without an output directory, and for want of workers if there is an image. What is in the
files does not matter to that. -/
theorem run_exits_before_output {arguments : List String} {o : Options}
    (parsed : parse arguments = .ok o) (directory : String → List FileEntry) :
    ∃ base : Collection K, Preset.collection o.preset [] = .ok base ∧
      (o.Accepted → ∃ d,
        Document.create o.preset o.entries o.workers (standardCounter K) = .ok d ∧
          o.Configures base d ∧
          ∀ written,
            (d.processDirectory Document.imageExtensions (directory o.inputDir)).1 = .ok written →
            run K arguments directory = ⟨none, some (o.outputDir, written)⟩) ∧
      (¬ o.Accepted →
        (∃ fault, Document.create o.preset (o.entries : List (String × Value K)) o.workers
          (standardCounter K) = .error fault) ∧
          run K arguments directory = ⟨some 1, none⟩) ∧
      (∀ code, (run K arguments directory).exit = some code → code = 1 ∧
        ∀ name outputs, (run K arguments directory).written = some (name, outputs) →
          outputs = []) ∧
      ((run K arguments directory).exit ≠ none ↔
        ¬ o.Accepted ∨ (∃ n ∈ o.workers, n ≤ 0) ∧ ∃ f ∈ directory o.inputDir,
          Document.hasExtension Document.imageExtensions f.name = true) := by
  obtain ⟨offered, reduced⟩ := offered_of_parse parsed
  obtain ⟨base, plain, accepts, rejects⟩ := exists_base (K := K) offered reduced
  have rejection : ¬ o.Accepted → execute K o (directory o.inputDir) = ⟨some 1, none⟩ := by
    intro rejected
    obtain ⟨fault, refused⟩ := rejects rejected
    rw [execute, refused]
  have run_eq : run K arguments directory = execute K o (directory o.inputDir) := by
    rw [run, parsed]
  rw [run_eq]
  refine ⟨base, plain, fun accepted => ?_, fun rejected => ⟨rejects rejected, rejection rejected⟩,
    fun code stopped => ?_, ?_⟩
  · obtain ⟨d, opened, configured⟩ := accepts accepted
    exact ⟨d, opened, configured, fun written done => execute_of_ok opened done⟩
  · by_cases accepted : o.Accepted
    · obtain ⟨d, opened, -⟩ := accepts accepted
      have report := execute_of_exit opened stopped
      rw [report] at stopped ⊢
      cases stopped
      refine ⟨rfl, fun name outputs written => ?_⟩
      cases written
      rfl
    · rw [rejection accepted] at stopped ⊢
      cases stopped
      refine ⟨rfl, fun name outputs written => ?_⟩
      cases written
  · by_cases accepted : o.Accepted
    · obtain ⟨d, opened, -⟩ := accepts accepted
      rw [ne_eq, exit_eq_none_iff opened, not_not]
      exact (or_iff_right (not_not.mpr accepted)).symm
    · rw [rejection accepted]
      exact iff_of_true (Option.some_ne_none 1) (Or.inl accepted)

end Run

def named (rest : List String) : List String := ["--input_dir", "in", "--output_dir", "out"] ++ rest

def damaged (_ : String) : List FileEntry := [⟨"a.png", .unreadable⟩]

def Options.numbers (o : Options) : List (Option Int) :=
  [o.stride, o.minLines, o.maxDistance, o.workers]

theorem exists_of_numbers {arguments : List String} {numbers : List (Option Int)}
    (read : (parse arguments).toOption.map Options.numbers = some numbers) :
    ∃ o, parse arguments = .ok o ∧ o.numbers = numbers := by
  obtain ⟨o, found, same⟩ := Option.map_eq_some_iff.mp read
  exact ⟨o, toOption_eq_some_iff.mp found, same⟩

/-- A file that cannot be read is passed over; a small stride or a lack of workers is not. -/
theorem damaged_passed_over : (run Rat (named ["--no_useboth"]) damaged).exit = none ∧
    run Rat (named ["--sampling", "4"]) damaged = ⟨some 1, none⟩ ∧
    (run Rat (named ["--workers", "0"]) damaged).exit = some 1 := by
  have plain : (parse (named ["--no_useboth"])).toOption.map Options.numbers =
      some [none, none, none, none] := by decide +kernel
  have small : (parse (named ["--sampling", "4"])).toOption.map Options.numbers =
      some [some 4, none, none, none] := by decide +kernel
  have unstaffed : (parse (named ["--workers", "0"])).toOption.map Options.numbers =
      some [none, none, none, some 0] := by decide +kernel
  have image : Document.hasExtension Document.imageExtensions "a.png" = true := by decide +kernel
  refine ⟨?_, ?_, ?_⟩
  · obtain ⟨o, parsed, numbers⟩ := exists_of_numbers plain
    simp only [Options.numbers, List.cons.injEq] at numbers
    obtain ⟨-, -, -, -, -, exits⟩ := run_exits_before_output (K := Rat) parsed damaged
    have accepted : o.Accepted := ⟨by simp [numbers], by simp [numbers], by simp [numbers]⟩
    by_contra stopped
    rcases exits.mp stopped with rejected | ⟨⟨n, given, -⟩, -⟩
    · exact rejected accepted
    · simp [numbers] at given
  · obtain ⟨o, parsed, numbers⟩ := exists_of_numbers small
    simp only [Options.numbers, List.cons.injEq] at numbers
    obtain ⟨-, -, -, rejects, -⟩ := run_exits_before_output (K := Rat) parsed damaged
    exact (rejects fun accepted => absurd (accepted.stride 4 numbers.1) (by decide)).2
  · obtain ⟨o, parsed, numbers⟩ := exists_of_numbers unstaffed
    simp only [Options.numbers, List.cons.injEq] at numbers
    obtain ⟨-, -, -, -, codes, exits⟩ := run_exits_before_output (K := Rat) parsed damaged
    have idle : ∃ n ∈ o.workers, n ≤ 0 := ⟨0, numbers.2.2.2.1, le_rfl⟩
    have stopped := exits.mpr (.inr ⟨idle, ⟨"a.png", .unreadable⟩, by simp [damaged], image⟩)
    obtain ⟨code, exit⟩ := Option.ne_none_iff_exists'.mp stopped
    rw [exit, (codes code exit).1]

end Command

end PageFlattening

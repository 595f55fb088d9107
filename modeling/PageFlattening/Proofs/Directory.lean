import PageFlattening.Proofs.FileNames
import PageFlattening.Proofs.Processing
import PageFlattening.Proofs.SafeRendering

/-! Flattening a directory. Writing one file after the other comes to the outputs of those that can
be rendered, and a fault leaves none, since it comes before the first. A file that cannot be read
keeps its page number and leaves no model, so that the valid models are those of the readable files;
each of these is then written once, under a name of its own. A file without a valid model is of no
consequence to the others. -/
namespace PageFlattening

namespace Source

def page? (source : Source) : Option Page :=
  (source.load >>= fun p => p.check.map fun _ => p).toOption

theorem page?_eq_some_iff {source : Source} {p : Page} :
    source.page? = some p ↔ source.load = .ok p ∧ p.check = .ok () := by
  rw [page?, toOption_eq_some_iff]
  constructor
  · intro h
    obtain ⟨q, loaded, h⟩ := exists_of_bind_eq_ok h
    cases whole : q.check with
    | error fault =>
        rw [whole] at h
        cases h
    | ok _ =>
        rw [whole] at h
        cases h
        exact ⟨loaded, whole⟩
  · rintro ⟨loaded, whole⟩
    rw [loaded]
    change p.check.map _ = _
    rw [whole]
    rfl

end Source

namespace FileEntry

def rewritten (name : String) (content : Source) (f : FileEntry) : FileEntry :=
  if f.name = name then { f with content } else f

theorem rewritten_name (name : String) (content : Source) (f : FileEntry) :
    (f.rewritten name content).name = f.name := by
  rw [rewritten]
  split <;> rfl

theorem rewritten_of_ne {name : String} {f : FileEntry} (other : f.name ≠ name)
    (content : Source) : f.rewritten name content = f := if_neg other

end FileEntry

/-! Files are written one after the other. -/

namespace Document

variable {K : Type} [Scalar K]

def renderFiles (d : Document K) (files : List FileEntry) : List OutputFile :=
  files.zipIdx.filterMap fun (f, i) =>
    match d.processFile f.content i (outputName f.name) with
    | .ok (_, out) => some out
    | .error _ => none

end Document

namespace Batch

variable {K : Type} [Scalar K]

theorem build_written (b : Batch K) (images : List FileEntry) :
    (b.build images).state.written = b.written := by
  rw [build]
  dsimp only
  split <;> rfl

theorem resolve_written (b : Batch K) : b.resolve.state.written = b.written := rfl

theorem writeFiles_eq (b : Batch K) (images : List FileEntry) :
    b.writeFiles images = { b with written := b.written ++ b.document.renderFiles images } := by
  rw [writeFiles, Document.renderFiles]
  generalize images.zipIdx = entries
  induction entries generalizing b with
  | nil => simp
  | cons entry rest ih =>
      obtain ⟨f, i⟩ := entry
      rw [List.foldl_cons]
      change rest.foldl _ (b.writeFile f i) = _
      rw [ih, writeFile]
      cases processed : b.document.processFile f.content i (Document.outputName f.name) with
      | error fault => simp [processed]
      | ok both => simp [processed]

end Batch

namespace Document

variable {K : Type} [Scalar K]

/-- Until a fault stops a directory nothing has been written: pages are built and references are
resolved before, and what goes wrong with a file afterwards is no fault of the directory. -/
theorem written_of_fault {d : Document K} {extensions : List String} {files : List FileEntry}
    (stopped : (d.flattenFiles extensions files).fault ≠ none) :
    (d.flattenFiles extensions files).state.written = [] := by
  rw [flattenFiles] at stopped ⊢
  split at stopped
  · exact absurd rfl stopped
  rename_i some
  rw [if_neg some]
  rcases Outcome.andThen_of_stopped stopped with before | ⟨_, writing⟩
  · rw [before] at stopped ⊢
    rcases Outcome.andThen_of_stopped stopped with building | ⟨resolving, _⟩
    · rw [building, Batch.build_written]
    · rw [resolving, Batch.resolve_written, Batch.build_written]
  · exact absurd rfl writing

theorem processDirectory_eq_ok_iff {d : Document K} {extensions : List String}
    {files : List FileEntry} {written : List OutputFile} :
    (d.processDirectory extensions files).1 = .ok written ↔
      (d.flattenFiles extensions files).fault = none ∧
        (d.flattenFiles extensions files).state.written = written := by
  rw [processDirectory]
  obtain ⟨state, fault⟩ := d.flattenFiles extensions files
  cases fault <;> simp [Outcome.result, Except.map]

/-! Pages that cannot be built are passed over. -/

theorem Added.skip {d next : Document K} (blank : ∀ q, d.collection.passing false q = none)
    {images : List Source} (h : Added d images next) {image : Source} {fault : Fault}
    (failed : d.modelFor images.length image = .error fault) :
    Added d (images ++ [image]) next := by
  refine { h with passing := fun q => ?_ }
  rw [h.passing, validAfter_snoc]
  by_cases here : q = images.length
  · rw [if_pos here, validAfter, if_neg (by omega), blank, here, failed]
    rfl
  · rw [if_neg here]

theorem addEach_added_of_blank {d : Document K} (sound : d.Sound)
    (blank : ∀ q, d.collection.passing false q = none) (images : List Source) :
    Added d images (d.addEach (numbered images)).2 := by
  induction images using List.reverseRecOn with
  | nil => exact .refl sound
  | append_singleton images image ih =>
      rw [numbered_snoc, addEach_snoc]
      cases made : d.modelFor images.length image with
      | ok m =>
          obtain ⟨last, result, done, added⟩ := ih.snoc sound made
          rw [done]
          exact added
      | error fault =>
          have made' := (ih.modelFor images.length image).trans made
          rw [addPage_of_error made']
          exact ih.skip blank made

theorem addPages_skips {d : Document K} (sound : d.Sound)
    (blank : ∀ q, d.collection.passing false q = none) (images : List Source) :
    ∃ results next, d.addPages (numbered images) true = (.ok results, next) ∧
      Added d images next ∧ images.length ≤ next.collection.declaredPages := by
  obtain ⟨announced, enough⟩ := announce_added sound images
  have blank' : ∀ q, (d.announce (numbered images)).collection.passing false q = none := by
    intro q
    rw [announced.passing, validAfter, if_neg (by simp), blank]
  have added := addEach_added_of_blank (announced.sound sound) blank' images
  refine ⟨((d.announce (numbered images)).addEach (numbered images)).1.map Except.toOption, _, ?_,
    announced.trans added, Nat.le_trans enough added.declaredPages⟩
  simp only [addPages, sound.workers, Bool.false_eq_true, if_false, if_true]

theorem flattenFiles_done {d : Document K} (sound : d.Sound)
    (blank : ∀ q, d.collection.passing false q = none) (files : List FileEntry) :
    ∃ after b, Processed d ((imageFiles imageExtensions files).map (·.content)) after ∧
      d.flattenFiles imageExtensions files = .done b ∧
      b.written = after.renderFiles (imageFiles imageExtensions files) := by
  obtain ⟨results, next, added, h, enough⟩ :=
    addPages_skips sound blank ((imageFiles imageExtensions files).map (·.content))
  obtain ⟨after, resolved, processed⟩ := h.processed sound enough
  rw [flattenFiles]
  split
  · rename_i empty
    rw [List.isEmpty_iff.mp empty] at processed ⊢
    exact ⟨after, _, processed, rfl, rfl⟩
  · refine ⟨after, _, processed, ?_, congrArg Batch.written (Batch.writeFiles_eq ⟨after, []⟩ _)⟩
    simp only [Batch.build, added, Outcome.done_andThen, Batch.resolve, resolved]
    rfl

theorem processDirectory_eq_ok {d : Document K} (sound : d.Sound)
    (blank : ∀ q, d.collection.passing false q = none) (files : List FileEntry) :
    ∃ after, Processed d ((imageFiles imageExtensions files).map (·.content)) after ∧
      (d.processDirectory imageExtensions files).1 =
        .ok (after.renderFiles (imageFiles imageExtensions files)) := by
  obtain ⟨after, b, processed, done, written⟩ := flattenFiles_done sound blank files
  refine ⟨after, processed, ?_⟩
  rw [processDirectory, done, ← written]
  rfl

/-! The images of a directory. -/

theorem mem_imageFiles {files : List FileEntry} {f : FileEntry} :
    f ∈ imageFiles imageExtensions files ↔
      f ∈ files ∧ ∃ s, ∃ e ∈ endings, f.name = s ++ e := by
  rw [imageFiles, List.mem_mergeSort, List.mem_filter, hasExtension_iff]

theorem imageFiles_ascending {files : List FileEntry} (distinct : (files.map (·.name)).Nodup) :
    ((imageFiles imageExtensions files).map (·.name)).Pairwise (· < ·) := by
  have sorted : (imageFiles imageExtensions files).Pairwise fun a b =>
      decide (a.name ≤ b.name) = true := by
    refine List.pairwise_mergeSort (fun a b c => ?_) (fun a b => ?_) _
    · simp only [decide_eq_true_eq]
      exact String.le_trans
    · simp only [Bool.or_eq_true, decide_eq_true_eq]
      exact String.le_total _ _
  have distinct' : ((imageFiles imageExtensions files).map (·.name)).Nodup := by
    rw [imageFiles, ((List.mergeSort_perm _ _).map _).nodup_iff]
    exact distinct.sublist (List.filter_sublist.map _)
  rw [List.pairwise_map]
  refine (sorted.and (List.pairwise_map.mp distinct')).imp ?_
  rintro a b ⟨le, ne⟩
  exact lt_of_le_of_ne (of_decide_eq_true le) ne

theorem imageFiles_rewritten (files : List FileEntry) (name : String) (content : Source) :
    imageFiles imageExtensions (files.map (FileEntry.rewritten name content)) =
      (imageFiles imageExtensions files).map (FileEntry.rewritten name content) := by
  rw [imageFiles, imageFiles, List.map_mergeSort (s := fun a b => decide (a.name ≤ b.name)),
    List.filter_map]
  · simp only [Function.comp_def, FileEntry.rewritten_name]
  · intro a _ b _
    simp only [FileEntry.rewritten_name]

/-! What is written. -/

def output? (d : Document K) (f : FileEntry) (page : Nat) : Option OutputFile :=
  (d.render f.content page).toOption.map fun p => ⟨outputName f.name, p.stored⟩

theorem renderFiles_eq {d : Document K} {files : List FileEntry}
    (named : ∀ f ∈ files, ImageName f.name) :
    d.renderFiles files = files.zipIdx.filterMap fun e => d.output? e.1 e.2 := by
  refine List.filterMap_congr ?_
  rintro ⟨f, i⟩ member
  have written := (named f (List.fst_mem_of_mem_zipIdx member)).write_eq
  rw [output?]
  dsimp only
  rw [processFile]
  cases d.render f.content i with
  | error fault => rfl
  | ok p =>
      simp only [bind, Except.bind, written]
      rfl

theorem output?_filter_name (d : Document K) (f : FileEntry) (page : Nat) :
    (d.output? f page).filter (·.name != outputName f.name) = none := by
  rw [output?]
  cases (d.render f.content page).toOption <;> simp

theorem render_of_page?_eq_none {d : Document K} {image : Source} (unreadable : image.page? = none)
    (page : Int) : (d.render image page).toOption = none := by
  refine Option.eq_none_iff_forall_ne_some.mpr fun out h => ?_
  rw [toOption_eq_some_iff] at h
  obtain ⟨p, loaded, h⟩ := exists_of_bind_eq_ok h
  obtain ⟨_, whole, _⟩ := exists_of_bind_eq_ok h
  rw [Source.page?_eq_some_iff.mpr ⟨loaded, whole⟩] at unreadable
  cases unreadable

theorem Processed.output?_name {d after : Document K} {files : List FileEntry}
    (h : Processed d (files.map (·.content)) after)
    (countable : ∀ f ∈ files, ∀ p, f.content.page? = some p →
      p.Countable K d.collection.settings d.counter)
    {f : FileEntry} {i : Nat} (found : files[i]? = some f) :
    (after.output? f i).map (·.name) =
      (Option.guard (fun f => f.content.page?.isSome) f).map fun f => outputName f.name := by
  cases readable : f.content.page? with
  | none => simp [output?, render_of_page?_eq_none readable, Option.guard, readable]
  | some p =>
      obtain ⟨loaded, whole⟩ := Source.page?_eq_some_iff.mp readable
      obtain ⟨inside, _⟩ := List.getElem?_eq_some_iff.mp found
      obtain ⟨out, rendered⟩ := h.exists_render_eq_ok (by rwa [List.length_map]) loaded whole
        fun _ _ => countable f (List.mem_of_getElem? found) p readable
      simp [output?, rendered, Option.guard, readable, Except.toOption]

theorem Processed.outputs_named {d after : Document K} {files : List FileEntry}
    (h : Processed d (files.map (·.content)) after) (named : ∀ f ∈ files, ImageName f.name)
    (countable : ∀ f ∈ files, ∀ p, f.content.page? = some p →
      p.Countable K d.collection.settings d.counter) :
    (after.renderFiles files).map (·.name) =
      (files.filter (·.content.page?.isSome)).map fun f => outputName f.name := by
  have numbers := List.zipIdx_map_fst 0 files
  rw [renderFiles_eq named, ← List.filterMap_eq_filter, List.map_filterMap, List.map_filterMap]
  nth_rewrite 2 [← numbers]
  rw [List.filterMap_map]
  refine List.filterMap_congr ?_
  rintro ⟨f, i⟩ member
  exact h.output?_name countable (List.mem_zipIdx_iff_getElem?.mp member)

theorem Processed.output_corrected {d after : Document K} {files : List FileEntry}
    (h : Processed d (files.map (·.content)) after) (named : ∀ f ∈ files, ImageName f.name)
    {f : FileEntry} {i : Nat} (found : files[i]? = some f) {p : Page}
    (readable : f.content.page? = some p)
    (countable : p.Countable K d.collection.settings d.counter) :
    ∃ out, Corrected d.collection.settings d.counter (d.validAfter (files.map (·.content))) i p
      out ∧ ⟨outputName f.name, out.stored⟩ ∈ after.renderFiles files := by
  obtain ⟨loaded, whole⟩ := Source.page?_eq_some_iff.mp readable
  obtain ⟨inside, _⟩ := List.getElem?_eq_some_iff.mp found
  have inside : i < (files.map (·.content)).length := by rwa [List.length_map]
  obtain ⟨out, rendered⟩ := h.exists_render_eq_ok inside loaded whole fun _ _ => countable
  refine ⟨out, (h.render_eq_ok_iff inside loaded whole out).mp rendered, ?_⟩
  rw [renderFiles_eq named]
  refine List.mem_filterMap.mpr ⟨(f, i), List.mem_zipIdx_iff_getElem?.mpr found, ?_⟩
  simp [output?, rendered, Except.toOption]

theorem outputs_distinct {files : List FileEntry} (named : ∀ f ∈ files, ImageName f.name)
    (ascending : (files.map (·.name)).Pairwise (· < ·)) :
    (files.map fun f => outputName f.name).Nodup := by
  refine List.pairwise_map.mpr ((List.pairwise_map.mp ascending).imp_of_mem ?_)
  intro f g left right before same
  exact before.ne ((named f left).outputName_inj (named g right) same)

/-! Files of no consequence. -/

/-- An image that leaves no valid model in its place: it cannot be read, or what is built from it
does not pass the check. -/
def Idle (d : Document K) (page : Nat) (image : Source) : Prop :=
  image.page? = none ∨
    ∀ m, d.modelFor page image = .ok m → m.passes d.collection.settings.thresholds false = false

theorem Idle.validModel_eq_none {d : Document K} {images : List Source} {i : Nat} {image : Source}
    (idle : d.Idle i image) (found : images[i]? = some image) : d.validModel images i = none := by
  cases made : d.modelFor i image with
  | error fault =>
      rw [validModel, found, Option.bind_some, made]
      rfl
  | ok m =>
      rcases idle with unreadable | failing
      · obtain ⟨p, loaded, whole⟩ := load_of_modelFor made
        rw [Source.page?_eq_some_iff.mpr ⟨loaded, whole⟩] at unreadable
        cases unreadable
      · rw [validModel_of_modelFor found made, failing m made]
        rfl

theorem validModel_rewritten {d : Document K} {files : List FileEntry} {name : String}
    {content : Source} (idle : ∀ i f, files[i]? = some f → f.name = name →
      d.Idle i f.content ∧ d.Idle i content) :
    d.validModel ((files.map (FileEntry.rewritten name content)).map (·.content)) =
      d.validModel (files.map (·.content)) := by
  funext i
  cases found : files[i]? with
  | none => simp only [validModel, List.getElem?_map, found, Option.map_none]
  | some f =>
      by_cases here : f.name = name
      · obtain ⟨before, after⟩ := idle i f found here
        rw [after.validModel_eq_none (by simp [found, FileEntry.rewritten, here]),
          before.validModel_eq_none (by simp [found])]
      · simp only [validModel, List.getElem?_map, found, Option.map_some,
          FileEntry.rewritten_of_ne here]

theorem Processed.outputs_rewritten {d after after' : Document K} {files : List FileEntry}
    {name : String} {content : Source} (h : Processed d (files.map (·.content)) after)
    (g : Processed d ((files.map (FileEntry.rewritten name content)).map (·.content)) after')
    (same : d.validAfter ((files.map (FileEntry.rewritten name content)).map (·.content)) =
      d.validAfter (files.map (·.content)))
    (named : ∀ f ∈ files, ImageName f.name) :
    (after'.renderFiles (files.map (FileEntry.rewritten name content))).filter
        (·.name != outputName name) =
      (after.renderFiles files).filter (·.name != outputName name) := by
  have named' : ∀ f ∈ files.map (FileEntry.rewritten name content), ImageName f.name := by
    simpa [FileEntry.rewritten_name] using named
  rw [renderFiles_eq named, renderFiles_eq named', List.zipIdx_map, List.filterMap_map,
    List.filter_filterMap, List.filter_filterMap]
  refine List.filterMap_congr ?_
  rintro ⟨f, i⟩ member
  have found := List.mem_zipIdx_iff_getElem?.mp member
  obtain ⟨inside, _⟩ := List.getElem?_eq_some_iff.mp found
  change Option.filter _ (after'.output? (f.rewritten name content) i) = _
  by_cases here : f.name = name
  · -- The output of the changed file itself does not count.
    have dropped := after'.output?_filter_name (f.rewritten name content) i
    rw [FileEntry.rewritten_name, here] at dropped
    rw [dropped, ← here, output?_filter_name]
  · have served := h.serves i (by rwa [List.length_map])
    rw [← same] at served
    rw [FileEntry.rewritten_of_ne here, output?, output?, h.render_congr g rfl rfl
      (by rwa [List.length_map, List.length_map]) served]

/-- What flattening a directory comes to, file by file. The images are the files with an extension,
each once, in the order of their names, and their places there are the page numbers. Those that can
be read are written, corrected by the valid models of all, and no others; each has a name of its
own. Another content for a file makes no difference to what is written for the others, as long as
neither the old nor the new one leaves a valid model. -/
structure FileByFile (d : Document K) (files : List FileEntry) (outputs : List OutputFile) :
    Prop where
  images : ∀ f, f ∈ imageFiles imageExtensions files ↔
    f ∈ files ∧ ∃ s, ∃ e ∈ endings, f.name = s ++ e
  ascending : ((imageFiles imageExtensions files).map (·.name)).Pairwise (· < ·)
  named : outputs.map (·.name) = ((imageFiles imageExtensions files).filter
    (·.content.page?.isSome)).map fun f => outputName f.name
  marked : ∀ f ∈ imageFiles imageExtensions files, ∃ s, s ≠ "" ∧ ∃ e ∈ endings,
    f.name = s ++ e ∧ outputName f.name = s ++ "_dewarp" ++ e
  distinct : (outputs.map (·.name)).Nodup
  corrected : ∀ i f p, (imageFiles imageExtensions files)[i]? = some f → f.content.page? = some p →
    ∃ out, Corrected d.collection.settings d.counter
      (d.validModel ((imageFiles imageExtensions files).map (·.content))) i p out ∧
      ⟨outputName f.name, out.stored⟩ ∈ outputs
  isolated : ∀ name content, (∀ i f, (imageFiles imageExtensions files)[i]? = some f →
      f.name = name → d.Idle i f.content ∧ d.Idle i content) →
    ∃ outputs', (d.processDirectory imageExtensions
        (files.map (FileEntry.rewritten name content))).1 = .ok outputs' ∧
      outputs'.filter (·.name != outputName name) = outputs.filter (·.name != outputName name)

/-- A new document flattens a directory of any files whose names are more than an extension. -/
theorem processDirectory_fileByFile {preset : String} {entries : List (String × Value K)}
    {workers : Option Int} {injected : Option ColumnCounter} {d : Document K}
    (h : create preset entries workers (injected.getD (standardCounter K)) = .ok d)
    (workforce : ∀ n, workers = some n → 0 < n)
    (answers : ∀ counter, injected = some counter → ∀ ink, ∃ n, counter ink = .ok n)
    {files : List FileEntry} (apart : (files.map (·.name)).Nodup)
    (stems : ∀ f ∈ files, f.name ∉ endings)
    (clippable : injected = none → ∀ f ∈ files, ∀ p, f.content.page? = some p → p.Clippable K) :
    ∃ outputs, (d.processDirectory imageExtensions files).1 = .ok outputs ∧
      d.FileByFile files outputs := by
  have sound := create_sound h workforce
  have blank := create_passing h
  have alone := validAfter_eq blank
  have counter : d.counter = injected.getD (standardCounter K) := by
    obtain ⟨_, _, rfl⟩ := create_eq h
    rfl
  obtain ⟨after, processed, done⟩ := processDirectory_eq_ok sound blank files
  have ascending := imageFiles_ascending apart
  have named : ∀ f ∈ imageFiles imageExtensions files, ImageName f.name := by
    intro f member
    obtain ⟨listed, s, e, ending, name⟩ := mem_imageFiles.mp member
    exact imageName_of_hasExtension (hasExtension_iff.mpr ⟨s, e, ending, name⟩) (stems f listed)
  have countable : ∀ f ∈ imageFiles imageExtensions files, ∀ p, f.content.page? = some p →
      p.Countable K d.collection.settings d.counter := by
    intro f member p readable
    rw [counter]
    exact Page.countable_of (Source.page?_eq_some_iff.mp readable).2 _ answers
      fun standard => clippable standard f (mem_imageFiles.mp member).1 p readable
  have names := processed.outputs_named named countable
  refine ⟨_, done, fun f => mem_imageFiles, ascending, names, ?_, ?_, ?_, ?_⟩
  · intro f member
    obtain ⟨s, stem, e, ending, name⟩ := named f member
    exact ⟨s, stem, e, ending, name, by rw [name, outputName_append stem ending]⟩
  · rw [names]
    exact (outputs_distinct named ascending).sublist (List.filter_sublist.map _)
  · intro i f p found readable
    rw [← alone]
    exact processed.output_corrected named found readable
      (countable f (List.mem_of_getElem? found) p readable)
  · intro name content idle
    obtain ⟨after', processed', done'⟩ := processDirectory_eq_ok sound blank
      (files.map (FileEntry.rewritten name content))
    rw [imageFiles_rewritten] at processed' done'
    refine ⟨_, done', processed.outputs_rewritten processed' ?_ named⟩
    rw [alone, alone, validModel_rewritten idle]

end Document

namespace Stepped

def files : List FileEntry :=
  [⟨"c.tif", .page (.bit page)⟩, ⟨"notes", .unreadable⟩, ⟨"b.PNG", dot⟩, ⟨"a.png", .unreadable⟩]

theorem imageFiles_files : Document.imageFiles Document.imageExtensions files =
    [⟨"a.png", .unreadable⟩, ⟨"b.PNG", dot⟩, ⟨"c.tif", .page (.bit page)⟩] := by
  have kept : (files.map (·.name)).map (Document.hasExtension Document.imageExtensions) =
      [true, false, true, true] := by
    decide +kernel
  simp only [files, List.map_cons, List.map_nil, List.cons.injEq, and_true] at kept
  obtain ⟨c, notes, b, a⟩ := kept
  rw [Document.imageFiles, files]
  simp only [List.filter, c, notes, b, a]
  simp [List.mergeSort]

theorem idle_dot (i : Nat) : document.Idle i dot := by
  right
  intro m built
  obtain ⟨m', built', failed⟩ := modelFor_dot i
  cases built.symm.trans built'
  rw [PageModel.passes, failed]
  rfl

/-- The two readable files are written. A page without lines in place of the unreadable file would
be written as well, and nothing else would change. -/
theorem files_written : ∃ outputs outputs',
    (document.processDirectory Document.imageExtensions files).1 = .ok outputs ∧
      document.FileByFile files outputs ∧
      outputs.map (·.name) = ["b_dewarp.PNG", "c_dewarp.tif"] ∧
      (document.processDirectory Document.imageExtensions
        (files.map (FileEntry.rewritten "a.png" dot))).1 = .ok outputs' ∧
      outputs'.filter (·.name != Document.outputName "a.png") =
        outputs.filter (·.name != Document.outputName "a.png") := by
  have created : Document.create "default" entries (some 1)
      ((some fun _ => .ok 1).getD (standardCounter Rat)) = .ok document := create_document
  have apart : (files.map (·.name)).Nodup := by decide +kernel
  have stems : ∀ f ∈ files, f.name ∉ Document.endings := by decide +kernel
  obtain ⟨outputs, done, each⟩ := Document.processDirectory_fileByFile created (by simp) (by simp)
    apart stems (by simp)
  have unreadable : ∀ f ∈ files, f.name = "a.png" → f.content = .unreadable := by
    simp [files]
  obtain ⟨outputs', done', same⟩ := each.isolated "a.png" dot fun i f found name => by
    have listed := ((each.images f).mp (List.mem_of_getElem? found)).1
    rw [unreadable f listed name]
    exact ⟨.inl rfl, idle_dot i⟩
  refine ⟨outputs, outputs', done, each, ?_, done', same⟩
  rw [each.named, imageFiles_files]
  decide +kernel

def unstaffed : Document Rat := { document with workers := some 0 }

theorem unstaffed_writes_nothing :
    Document.create "default" entries (some 0) (fun _ => .ok 1) = .ok unstaffed ∧
      (files.map (·.name)).Nodup ∧ (∀ f ∈ files, f.name ∉ Document.endings) ∧
      (∃ f ∈ Document.imageFiles Document.imageExtensions files, f.content.page?.isSome = true) ∧
      (unstaffed.processDirectory Document.imageExtensions files).1 =
        .error (.misuse .noWorkers) := by
  refine ⟨rfl, by decide +kernel, by decide +kernel, ⟨⟨"b.PNG", dot⟩, ?_, rfl⟩, ?_⟩
  · rw [imageFiles_files]
    simp
  · rw [Document.processDirectory, Document.flattenFiles, imageFiles_files]
    rfl

end Stepped

end PageFlattening

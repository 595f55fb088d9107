import PageFlattening.Document.Directory
import Mathlib.Data.List.TakeWhile

/-! Names of images. A name that ends with an extension after a stem is taken apart at that place,
and so is the name of the file that is written for it, which therefore tells the two parts again. -/
namespace PageFlattening

namespace Text

def isExtension (e : String) : Bool :=
  match e.toList with
  | '.' :: word => !word.isEmpty && word.all Char.isAlphanum
  | _ => false

theorem isExtension_iff {e : String} :
    isExtension e = true ↔
      ∃ word, e.toList = '.' :: word ∧ word ≠ [] ∧ ∀ c ∈ word, c.isAlphanum = true := by
  rw [isExtension]
  split
  · rename_i word parts
    simp [parts]
  · rename_i other
    constructor
    · intro h
      cases h
    · rintro ⟨word, parts, _⟩
      exact (other word parts).elim

theorem ne_dot_of_isAlphanum {c : Char} (h : c.isAlphanum = true) : c ≠ '.' := by
  rintro rfl
  revert h
  decide

theorem takeWhile_reverse_append {s e : String} {word : List Char} (parts : e.toList = '.' :: word)
    (letters : ∀ c ∈ word, c.isAlphanum = true) :
    (s ++ e).toList.reverse.takeWhile (· != '.') = word.reverse := by
  have plain : ∀ c ∈ word.reverse, (c != '.') = true := by
    intro c member
    exact bne_iff_ne.mpr (ne_dot_of_isAlphanum (letters c (List.mem_reverse.mp member)))
  rw [String.toList_append, parts, List.reverse_append, List.reverse_cons, List.append_assoc,
    List.takeWhile_append_of_pos plain]
  simp

theorem suffix_append {s e : String} (stem : s ≠ "") (ending : isExtension e = true) :
    suffix (s ++ e) = e := by
  obtain ⟨word, parts, filled, letters⟩ := isExtension_iff.mp ending
  have before : 0 < s.length := Nat.pos_of_ne_zero fun h => stem (String.length_eq_zero_iff.mp h)
  have after : e.length = word.length + 1 := by
    rw [← String.length_toList, parts, List.length_cons]
  have count : word.length ≠ 0 := fun h => filled (List.length_eq_zero_iff.mp h)
  rw [suffix, takeWhile_reverse_append parts letters, List.length_reverse, List.reverse_reverse,
    if_neg (by rw [String.length_append]; omega), ← parts, String.ofList_toList]

theorem stem_append {s e : String} (stem : s ≠ "") (ending : isExtension e = true) :
    Text.stem (s ++ e) = s := by
  rw [Text.stem, suffix_append stem ending, String.length_append, Nat.add_sub_cancel,
    String.toList_append, ← String.length_toList, List.take_left, String.ofList_toList]

theorem formatWord_append {s e : String} (ending : isExtension e = true) :
    formatWord (s ++ e) = String.ofList e.toList.tail := by
  obtain ⟨word, parts, _, letters⟩ := isExtension_iff.mp ending
  have dotted : (s ++ e).contains '.' = true := by
    rw [String.contains_char_eq, String.toList_append, parts]
    simp
  rw [formatWord, if_pos dotted, takeWhile_reverse_append parts letters, List.reverse_reverse, parts,
    List.tail_cons]
  exact congrArg String.ofList (List.takeWhile_eq_self_iff.mpr letters)

end Text

namespace Document

def endings : List String := imageExtensions ++ imageExtensions.map String.toUpper

theorem isExtension_of_mem : ∀ e ∈ endings, Text.isExtension e = true := by
  decide +kernel

theorem endsWith_iff {name e : String} : name.endsWith e = true ↔ ∃ s, name = s ++ e := by
  rw [← String.endsWith_toSlice, String.Slice.endsWith_string_iff, String.copy_toSlice]
  constructor
  · rintro ⟨front, same⟩
    refine ⟨String.ofList front, String.toList_inj.mp ?_⟩
    rw [String.toList_append, String.toList_ofList, same]
  · rintro ⟨s, rfl⟩
    rw [String.toList_append]
    exact List.suffix_append _ _

theorem hasExtension_iff {name : String} :
    hasExtension imageExtensions name = true ↔ ∃ s, ∃ e ∈ endings, name = s ++ e := by
  simp only [hasExtension, List.any_eq_true, Bool.or_eq_true, endsWith_iff, endings,
    List.mem_append, List.mem_map]
  constructor
  · rintro ⟨e, listed, ⟨s, same⟩ | ⟨s, same⟩⟩
    · exact ⟨s, e, Or.inl listed, same⟩
    · exact ⟨s, e.toUpper, Or.inr ⟨e, listed, rfl⟩, same⟩
  · rintro ⟨s, e, listed | ⟨e, listed, rfl⟩, same⟩
    · exact ⟨e, listed, Or.inl ⟨s, same⟩⟩
    · exact ⟨e, listed, Or.inr ⟨s, same⟩⟩

/-- The name of an image that is more than an extension. -/
def ImageName (name : String) : Prop := ∃ s, s ≠ "" ∧ ∃ e ∈ endings, name = s ++ e

theorem imageName_of_hasExtension {name : String} (h : hasExtension imageExtensions name = true)
    (more : name ∉ endings) : ImageName name := by
  obtain ⟨s, e, ending, rfl⟩ := hasExtension_iff.mp h
  refine ⟨s, ?_, e, ending, rfl⟩
  rintro rfl
  rw [String.empty_append] at more
  exact more ending

theorem outputName_append {s e : String} (stem : s ≠ "") (ending : e ∈ endings) :
    outputName (s ++ e) = s ++ "_dewarp" ++ e := by
  have ending := isExtension_of_mem e ending
  rw [outputName, Text.stem_append stem ending, Text.suffix_append stem ending]

theorem ImageName.outputName_inj {a b : String} (ha : ImageName a) (hb : ImageName b)
    (same : outputName a = outputName b) : a = b := by
  obtain ⟨s, stem, e, ending, rfl⟩ := ha
  obtain ⟨s', stem', e', ending', rfl⟩ := hb
  rw [outputName_append stem ending, outputName_append stem' ending'] at same
  have marked : ∀ s : String, s ++ "_dewarp" ≠ "" := by simp
  have ending := isExtension_of_mem e ending
  have ending' := isExtension_of_mem e' ending'
  have suffixes := congrArg Text.suffix same
  have stems := congrArg Text.stem same
  rw [Text.suffix_append (marked s) ending, Text.suffix_append (marked s') ending'] at suffixes
  rw [Text.stem_append (marked s) ending, Text.stem_append (marked s') ending'] at stems
  rw [suffixes, (String.append_left_inj _).mp stems]

theorem ImageName.write_eq {name : String} (h : ImageName name) (p : Page) :
    write (outputName name) p = .ok ⟨outputName name, p.stored⟩ := by
  obtain ⟨s, stem, e, ending, rfl⟩ := h
  have known : ∀ e ∈ endings, formats.contains (String.ofList e.toList.tail).toLower = true := by
    decide +kernel
  rw [write, outputName_append stem ending, Text.formatWord_append (isExtension_of_mem e ending),
    if_pos (known e ending)]

end Document

end PageFlattening

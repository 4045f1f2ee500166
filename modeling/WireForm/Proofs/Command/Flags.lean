import Mathlib.Data.List.TakeWhile
import WireForm.Proofs.Command.Arguments

/-!
# How arguments are spelled

Words are read as arguments when they are spellings of arguments, one after the other. What the
arguments hold is then seen in the words themselves: a flag is given when it stands before the
two hyphens that end the flags.
-/

namespace WireForm.Command

/-! ## Spellings -/

/-- The words of one argument. -/
inductive Spells : Argument → List String → Prop where
  | path {word : String} (h : isFlag word = false) : Spells (.path word) [word]
  | plain {name : String} {argument : Argument} (h : plain? name = some argument) :
    Spells argument [name]
  | attached {name value : String} {argument : Argument} (h : valued? name value = some argument) :
    Spells argument [name ++ "=" ++ value]
  | apart {name value : String} {argument : Argument} (h : valued? name value = some argument)
    (hvalue : isFlag value = false) : Spells argument [name, value]

/-- The words of arguments. -/
inductive Spelled : List Argument → List String → Prop where
  | nil : Spelled [] []
  | paths (words : List String) : Spelled (words.map .path) ("--" :: words)
  | cons {argument : Argument} {unit : List String} {arguments : List Argument}
    {words : List String} (hu : Spells argument unit) (hw : Spelled arguments words) :
    Spelled (argument :: arguments) (unit ++ words)

theorem plain?_eq_some_iff {name : String} {argument : Argument} :
    plain? name = some argument ↔
      name = "--json" ∧ argument = .json ∨ name = "--no-zstd" ∧ argument = .noZstd := by
  unfold plain?
  split
  · simp_all [eq_comm]
  split
  · simp_all [eq_comm]
  · simp_all

theorem valued?_eq_some_iff {name value : String} {argument : Argument} :
    valued? name value = some argument ↔
      name = "--max-bytes" ∧ argument = .maxBytes value ∨
        name = "--as" ∧ argument = .kind value := by
  unfold valued?
  split
  · simp_all [eq_comm]
  split
  · simp_all [eq_comm]
  · simp_all

/-- The names of flags with a value hold no equals sign and look like flags, whatever follows
    them. -/
theorem valued?_name {name value : String} {argument : Argument}
    (h : valued? name value = some argument) :
    '=' ∉ name.toList ∧ plain? name = none ∧ name ≠ "--" ∧
      ∃ rest, name.toList = '-' :: '-' :: rest := by
  obtain ⟨rfl, -⟩ | ⟨rfl, -⟩ := valued?_eq_some_iff.mp h
  · exact ⟨by decide, by decide, by decide, _, rfl⟩
  · exact ⟨by decide, by decide, by decide, _, rfl⟩

theorem plain?_name {name : String} {argument : Argument} (h : plain? name = some argument) :
    '=' ∉ name.toList ∧ isFlag name = true ∧ name ≠ "--" := by
  obtain ⟨rfl, -⟩ | ⟨rfl, -⟩ := plain?_eq_some_iff.mp h
  · decide
  · decide

theorem isFlag_of_hyphens {word : String} {rest : List Char}
    (h : word.toList = '-' :: '-' :: rest) : isFlag word = true := by
  simp only [isFlag, h]

theorem isFlag_of_attached {name value : String} {argument : Argument}
    (h : valued? name value = some argument) : isFlag (name ++ "=" ++ value) = true := by
  obtain ⟨-, -, -, rest, hrest⟩ := valued?_name h
  have hword : (name ++ "=" ++ value).toList = '-' :: '-' :: (rest ++ '=' :: value.toList) := by
    simp [hrest]
  exact isFlag_of_hyphens hword

theorem valued?_inj {name value other text : String} {argument : Argument}
    (h : valued? name value = some argument) (ho : valued? other text = some argument) :
    name = other ∧ value = text := by
  obtain ⟨rfl, rfl⟩ | ⟨rfl, rfl⟩ := valued?_eq_some_iff.mp h
  · simpa [eq_comm] using valued?_eq_some_iff.mp ho
  · simpa [eq_comm] using valued?_eq_some_iff.mp ho

theorem valued?_ne_plain? {name value other : String} {argument flag : Argument}
    (h : valued? name value = some argument) (ho : plain? other = some flag) :
    argument ≠ flag := by
  obtain ⟨-, rfl⟩ | ⟨-, rfl⟩ := valued?_eq_some_iff.mp h
  · obtain ⟨-, rfl⟩ | ⟨-, rfl⟩ := plain?_eq_some_iff.mp ho <;> simp
  · obtain ⟨-, rfl⟩ | ⟨-, rfl⟩ := plain?_eq_some_iff.mp ho <;> simp

/-- A word without an equals sign is the name of a flag without a value. -/
theorem splitFlag_of_notMem {name : String} (h : '=' ∉ name.toList) :
    splitFlag name = (name, none) := by
  have hall : ∀ c ∈ name.toList, decide (c ≠ '=') = true := by
    intro c hc
    exact decide_eq_true fun he => h (he ▸ hc)
  simp only [splitFlag, List.dropWhile_eq_nil_iff.mpr hall, List.takeWhile_eq_self_iff.mpr hall,
    String.ofList_toList]

/-- A name and a value joined by an equals sign come apart there. -/
theorem splitFlag_append {name : String} (value : String) (h : '=' ∉ name.toList) :
    splitFlag (name ++ "=" ++ value) = (name, some value) := by
  have hall : ∀ c ∈ name.toList, decide (c ≠ '=') = true := by
    intro c hc
    exact decide_eq_true fun he => h (he ▸ hc)
  have hchars : (name ++ "=" ++ value).toList = name.toList ++ '=' :: value.toList := by
    simp
  simp only [splitFlag, hchars]
  rw [List.takeWhile_append_of_pos hall, List.dropWhile_append_of_pos hall]
  simp [String.ofList_toList]

/-- What a flag is split into makes up the flag again. -/
theorem eq_of_splitFlag {word name : String} {value : Option String}
    (h : splitFlag word = (name, value)) : word = value.elim name (name ++ "=" ++ ·) := by
  have happ := List.takeWhile_append_dropWhile (p := fun c => decide (c ≠ '=')) (l := word.toList)
  unfold splitFlag at h
  dsimp only at h
  split at h
  · next hd =>
    obtain ⟨rfl, rfl⟩ := Prod.mk.inj h
    rw [hd, List.append_nil] at happ
    exact (String.ofList_toList (s := word)).symm.trans (congrArg String.ofList happ.symm)
  · next c rest hd =>
    obtain ⟨rfl, rfl⟩ := Prod.mk.inj h
    have hc : c = '=' := by
      have := List.head_dropWhile_not (fun c => decide (c ≠ '=')) (l := word.toList)
      simp_all
    refine String.toList_inj.mp ?_
    rw [hd, hc] at happ
    simpa using happ.symm

/-- A spelling before other words is read as its argument. -/
theorem arguments?_append_of_spells {argument : Argument} {unit : List String}
    (h : Spells argument unit) (words : List String) :
    arguments? (unit ++ words) = (arguments? words).map (argument :: ·) := by
  cases h with
  | @path word h =>
    have hword : word ≠ "--" := by
      rintro rfl
      exact absurd h (by decide)
    simp only [List.singleton_append, arguments?, hword, h, if_false]
    cases arguments? words <;> rfl
  | @plain name argument h =>
    obtain ⟨heq, hflag, hname⟩ := plain?_name h
    simp only [List.singleton_append, arguments?, hname, hflag, if_true, if_false,
      splitFlag_of_notMem heq, h]
    cases arguments? words <;> rfl
  | @attached name value argument h =>
    obtain ⟨heq, -, -, rest, hrest⟩ := valued?_name h
    have hchars : (name ++ "=" ++ value).toList = '-' :: '-' :: (rest ++ '=' :: value.toList) := by
      simp [hrest]
    have hword : name ++ "=" ++ value ≠ "--" := by
      intro he
      rw [he] at hchars
      simp at hchars
    simp only [List.singleton_append, arguments?, hword, isFlag_of_hyphens hchars, if_true,
      if_false, splitFlag_append value heq, h]
    cases arguments? words <;> rfl
  | @apart name value argument h hvalue =>
    obtain ⟨heq, hplain, hname, rest, hrest⟩ := valued?_name h
    simp only [List.cons_append, List.nil_append, arguments?, hname, isFlag_of_hyphens hrest,
      if_true, if_false, splitFlag_of_notMem heq, hplain, hvalue, h]
    cases arguments? words <;> rfl

/-- Words are read as the arguments that they spell. -/
theorem arguments?_eq_some_iff {words : List String} {arguments : List Argument} :
    arguments? words = some arguments ↔ Spelled arguments words := by
  constructor
  · intro h
    fun_induction arguments? words generalizing arguments with
    | case1 =>
      obtain rfl := Option.some.inj h
      exact .nil
    | case2 words =>
      obtain rfl := Option.some.inj h
      exact .paths words
    | case3 word words _ _ name value hsplit ih =>
      obtain ⟨argument, ha, others, ho, rfl⟩ := by simpa [Option.bind_eq_some_iff] using h
      obtain rfl : word = name ++ "=" ++ value := eq_of_splitFlag hsplit
      exact .cons (.attached ha) (ih ho)
    | case4 word words _ _ name hsplit argument ha ih =>
      obtain ⟨others, ho, rfl⟩ := by simpa [Option.bind_eq_some_iff] using h
      obtain rfl : word = name := eq_of_splitFlag hsplit
      exact .cons (.plain ha) (ih ho)
    | case5 => cases h
    | case6 => cases h
    | case7 word _ _ name hsplit _ value words hvalue ih =>
      obtain ⟨argument, ha, others, ho, rfl⟩ := by simpa [Option.bind_eq_some_iff] using h
      obtain rfl : word = name := eq_of_splitFlag hsplit
      exact .cons (.apart ha (Bool.eq_false_iff.mpr hvalue)) (ih ho)
    | case8 word words _ hflag ih =>
      obtain ⟨others, ho, rfl⟩ := by simpa [Option.bind_eq_some_iff] using h
      exact .cons (.path (Bool.eq_false_iff.mpr hflag)) (ih ho)
  · intro h
    induction h with
    | nil => rfl
    | paths words => simp only [arguments?, if_true]
    | cons hu _ ih => rw [arguments?_append_of_spells hu, ih, Option.map_some]

/-! ## Words of one argument -/

theorem Spells.ne_hyphens {argument : Argument} {unit : List String} (h : Spells argument unit) :
    ∀ word ∈ unit, word ≠ "--" := by
  cases h with
  | path h =>
    rw [List.forall_mem_singleton]
    rintro rfl
    exact absurd h (by decide)
  | plain h => exact List.forall_mem_singleton.mpr (plain?_name h).2.2
  | attached h =>
    obtain ⟨-, -, -, rest, hrest⟩ := valued?_name h
    rw [List.forall_mem_singleton]
    intro he
    have hchars := congrArg String.toList he
    simp [hrest] at hchars
  | apart h hvalue =>
    rw [List.forall_mem_cons, List.forall_mem_singleton]
    refine ⟨(valued?_name h).2.2.1, ?_⟩
    rintro rfl
    exact absurd hvalue (by decide)

/-- A word that spells a flag without a value spells nothing else. -/
theorem Spells.eq_iff_mem {argument flag : Argument} {unit : List String} {name : String}
    (h : Spells argument unit) (hn : plain? name = some flag) :
    flag = argument ↔ name ∈ unit := by
  obtain ⟨heq, hflag, -⟩ := plain?_name hn
  cases h with
  | @path word h =>
    have hword : name ≠ word := by
      rintro rfl
      exact absurd hflag (by simp [h])
    have hpath : flag ≠ .path word := by
      rintro rfl
      exact absurd (plain?_path? hn) (by simp [Argument.path?])
    simp [hpath, hword]
  | plain h =>
    obtain ⟨rfl, rfl⟩ | ⟨rfl, rfl⟩ := plain?_eq_some_iff.mp h <;>
      obtain ⟨rfl, rfl⟩ | ⟨rfl, rfl⟩ := plain?_eq_some_iff.mp hn <;> simp
  | @attached other value _ h =>
    have hword : name ≠ other ++ "=" ++ value := by
      rintro rfl
      simp at heq
    have hne := valued?_ne_plain? h hn
    simp [hne.symm, hword]
  | @apart other value _ h hvalue =>
    have hother : name ≠ other := by
      rintro rfl
      exact absurd (valued?_name h).2.1 (by simp [hn])
    have hword : name ≠ value := by
      rintro rfl
      exact absurd hflag (by simp [hvalue])
    have hne := valued?_ne_plain? h hn
    simp [hne.symm, hother, hword]

/-- A value given to a flag is spelled attached to the flag or after it, and nowhere else. -/
theorem Spells.eq_iff_gives {argument flag : Argument} {unit : List String} {name value : String}
    (h : Spells argument unit) (hn : valued? name value = some flag) :
    flag = argument ↔ name ++ "=" ++ value ∈ unit ∨ unit = [name, value] := by
  have hflag := isFlag_of_attached hn
  cases h with
  | @path word h =>
    have hword : name ++ "=" ++ value ≠ word := by
      rintro rfl
      exact absurd hflag (by simp [h])
    have hpath : flag ≠ .path word := by
      rintro rfl
      exact absurd (valued?_path? hn) (by simp [Argument.path?])
    simp [hpath, hword]
  | @plain other _ h =>
    have hother : name ++ "=" ++ value ≠ other := by
      rintro rfl
      exact absurd (plain?_name h).1 (by simp)
    have hne : flag ≠ argument := valued?_ne_plain? hn h
    simp [hne, hother]
  | @attached other text _ h =>
    constructor
    · rintro rfl
      obtain ⟨rfl, rfl⟩ := valued?_inj hn h
      exact .inl (List.mem_singleton_self _)
    · rintro (hmem | hlen)
      · have hsplit := splitFlag_append value (valued?_name hn).1
        rw [List.mem_singleton.mp hmem, splitFlag_append text (valued?_name h).1] at hsplit
        obtain ⟨rfl, hvalue⟩ := Prod.mk.inj hsplit
        obtain rfl := Option.some.inj hvalue
        exact Option.some.inj (hn.symm.trans h)
      · simp at hlen
  | @apart other text _ h htext =>
    have hother : name ++ "=" ++ value ≠ other := by
      rintro rfl
      exact absurd (valued?_name h).1 (by simp)
    have hword : name ++ "=" ++ value ≠ text := by
      rintro rfl
      exact absurd hflag (by simp [htext])
    constructor
    · rintro rfl
      obtain ⟨rfl, rfl⟩ := valued?_inj hn h
      exact .inr rfl
    · rintro (hmem | hunit)
      · simp [hother, hword] at hmem
      · obtain ⟨rfl, rfl⟩ := by simpa using hunit
        exact Option.some.inj (hn.symm.trans h)

/-! ## Arguments side by side -/

/-- The words before the two hyphens that end the flags. -/
def beforeHyphens (words : List String) : List String := words.takeWhile (· ≠ "--")

theorem Spells.beforeHyphens_append {argument : Argument} {unit : List String}
    (h : Spells argument unit) (words : List String) :
    beforeHyphens (unit ++ words) = unit ++ beforeHyphens words :=
  List.takeWhile_append_of_pos fun word hword => decide_eq_true (h.ne_hyphens word hword)

/-- A flag without a value is among the arguments when it is among the words. -/
theorem Spelled.mem_iff {arguments : List Argument} {words : List String} {name : String}
    {flag : Argument} (h : Spelled arguments words) (hn : plain? name = some flag) :
    flag ∈ arguments ↔ name ∈ beforeHyphens words := by
  induction h with
  | nil => simp [beforeHyphens]
  | paths words =>
    have hpath : ∀ word, Argument.path word ≠ flag := by
      rintro word rfl
      exact absurd (plain?_path? hn) (by simp [Argument.path?])
    simp [beforeHyphens, hpath]
  | cons hu hw ih =>
    rw [hu.beforeHyphens_append, List.mem_append, List.mem_cons, ih, hu.eq_iff_mem hn]

end WireForm.Command

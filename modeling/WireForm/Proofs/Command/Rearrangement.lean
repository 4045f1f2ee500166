import Mathlib.Data.List.Perm.Basic
import WireForm.Command
import WireForm.Proofs.Command.Requests

/-!
# The order of arguments

The words after a command are cut into units: a path, a flag without a value, or a flag with its
value in one word or in two. Units in another order, and flags with their values spelled the other
way, make the same request, because a request is made of arguments by what they are.
-/

namespace WireForm.Command

/-! ## Units -/

/-- That words are those of one argument. -/
def IsUnit (unit : List String) : Prop := ∃ argument, Spells argument unit

/-- That a value can be spelled either way: it is not empty and begins with no hyphen. -/
def SpelledEitherWay (value : String) : Prop := ∃ c rest, value.toList = c :: rest ∧ c ≠ '-'

/-- That a unit is left as it is or that its flag is spelled with its value the other way. -/
inductive Respelled : List String → List String → Prop where
  | same (unit : List String) : Respelled unit unit
  | attach {name value : String} (hname : name = "--as" ∨ name = "--max-bytes")
    (hvalue : SpelledEitherWay value) : Respelled [name, value] [name ++ "=" ++ value]
  | detach {name value : String} (hname : name = "--as" ∨ name = "--max-bytes")
    (hvalue : SpelledEitherWay value) : Respelled [name ++ "=" ++ value] [name, value]

/-- That units are other units in another order, with any of them respelled. -/
def Rearranged (units others : List (List String)) : Prop :=
  ∃ moved, units.Perm moved ∧ List.Forall₂ Respelled moved others

theorem SpelledEitherWay.isFlag_eq_false {value : String} (h : SpelledEitherWay value) :
    isFlag value = false := by
  obtain ⟨c, rest, hchars, hc⟩ := h
  unfold isFlag
  rw [hchars]
  split
  · next heq => exact absurd (List.cons.inj heq).1 hc
  · rfl

theorem exists_valued? {name : String} (h : name = "--as" ∨ name = "--max-bytes")
    (value : String) : ∃ argument, valued? name value = some argument := by
  obtain rfl | rfl := h
  · exact ⟨.kind value, rfl⟩
  · exact ⟨.maxBytes value, rfl⟩

section Units

variable {argument : Argument} {arguments : List Argument} {unit other : List String}
  {units others : List (List String)} {words : List String}

/-- A flag in one word with its value spells what the flag makes with the value. -/
theorem Spells.of_attached {name value : String} {flag : Argument}
    (h : Spells argument [name ++ "=" ++ value]) (hn : valued? name value = some flag) :
    flag = argument :=
  (h.eq_iff_gives hn).mpr (.inl (List.mem_singleton_self _))

/-- A flag and its value in two words spell what the flag makes with the value. -/
theorem Spells.of_apart {name value : String} {flag : Argument}
    (h : Spells argument [name, value]) (hn : valued? name value = some flag) :
    flag = argument :=
  (h.eq_iff_gives hn).mpr (.inr rfl)

/-- A respelled unit is a spelling of the same argument. -/
theorem Spells.of_respelled (h : Spells argument unit) (hr : Respelled unit other) :
    Spells argument other := by
  cases hr with
  | same => exact h
  | attach hname hvalue =>
    obtain ⟨flag, hflag⟩ := exists_valued? hname _
    obtain rfl := h.of_apart hflag
    exact .attached hflag
  | detach hname hvalue =>
    obtain ⟨flag, hflag⟩ := exists_valued? hname _
    obtain rfl := h.of_attached hflag
    exact .apart hflag hvalue.isFlag_eq_false

/-- Words that hold no hyphens alone are units, one for each argument. -/
theorem Spelled.exists_units (h : Spelled arguments words) (hhyphens : "--" ∉ words) :
    ∃ units, List.Forall₂ Spells arguments units ∧ units.flatten = words := by
  induction h with
  | nil => exact ⟨[], .nil, rfl⟩
  | paths words => exact absurd (List.mem_cons_self ..) hhyphens
  | @cons argument unit arguments words hu _ ih =>
    obtain ⟨units, hunits, rfl⟩ := ih fun hmem => hhyphens (List.mem_append_right _ hmem)
    exact ⟨unit :: units, .cons hu hunits, rfl⟩

/-- Units one after the other are read as their arguments. -/
theorem Spelled.of_units (h : List.Forall₂ Spells arguments units) :
    Spelled arguments units.flatten := by
  induction h with
  | nil => exact .nil
  | cons hu _ ih => exact .cons hu ih

theorem exists_arguments (h : ∀ unit ∈ units, IsUnit unit) :
    ∃ arguments, List.Forall₂ Spells arguments units := by
  induction units with
  | nil => exact ⟨[], .nil⟩
  | cons unit units ih =>
    obtain ⟨⟨argument, hu⟩, hunits⟩ := List.forall_mem_cons.mp h
    obtain ⟨arguments, harguments⟩ := ih hunits
    exact ⟨argument :: arguments, .cons hu harguments⟩

theorem isUnit_of_forall₂ (h : List.Forall₂ Spells arguments units) :
    ∀ unit ∈ units, IsUnit unit := by
  induction h with
  | nil => exact List.forall_mem_nil _
  | cons hu _ ih => exact List.forall_mem_cons.mpr ⟨⟨_, hu⟩, ih⟩

/-- Respelled one by one, units spell the same arguments. -/
theorem forall₂_of_respelled (h : List.Forall₂ Spells arguments units)
    (hr : List.Forall₂ Respelled units others) : List.Forall₂ Spells arguments others := by
  induction h generalizing others with
  | nil =>
    cases hr
    exact .nil
  | cons hu _ ih =>
    obtain - | ⟨hrespelled, hrest⟩ := hr
    exact .cons (hu.of_respelled hrespelled) (ih hrest)

/-- Rearranged units spell the same arguments in another order. -/
theorem Rearranged.exists_perm (hr : Rearranged units others)
    (h : List.Forall₂ Spells arguments units) :
    ∃ moved : List Argument, arguments.Perm moved ∧ List.Forall₂ Spells moved others := by
  obtain ⟨middle, hperm, hrespelled⟩ := hr
  obtain ⟨moved, hmoved, hp⟩ := List.perm_comp_forall₂ hperm.symm h.flip
  exact ⟨moved, hp.symm, forall₂_of_respelled hmoved.flip hrespelled⟩

end Units

/-! ## Arguments in another order -/

section Orders

variable {arguments others : List Argument} {command : String} {request : Request}
  {task : List String → Option Task}

/-- A list of one item at most has no other order. -/
theorem eq_of_perm_toList {α : Type} {item : Option α} {items : List α}
    (h : item.toList.Perm items) : items = item.toList := by
  cases item with
  | none => exact List.nil_perm.mp h
  | some a => exact List.singleton_perm.mp h |>.symm

/-- The kinds that a command takes: none or one. -/
theorem exists_kinds_eq_toList (ht : task? command = some task) {kinds : List String}
    {asked : Task} (h : task kinds = some asked) : ∃ kind : Option String, kinds = kind.toList := by
  have hbind : (task? command).bind (· kinds) = some asked := by rw [ht, Option.bind_some, h]
  obtain ⟨-, rfl, -⟩ | ⟨name, -, rfl, -⟩ := task?_bind_eq_some_iff.mp hbind
  · exact ⟨none, rfl⟩
  · exact ⟨some name, rfl⟩

/-- What arguments ask for they ask for in every order. -/
theorem Asked.perm (ht : task? command = some task) (h : Asked arguments task request)
    (hp : arguments.Perm others) : Asked others task request := by
  have hpaths := hp.filterMap Argument.path?
  have hkinds := hp.filterMap Argument.kind?
  have hsizes := hp.filterMap Argument.maxBytes?
  -- Of paths, kinds and sizes there is one at most, so the order does nothing to them.
  obtain ⟨kind, hkind⟩ := exists_kinds_eq_toList ht h.task
  have hsame : others.filterMap Argument.kind? = arguments.filterMap Argument.kind? := by
    rw [hkind] at hkinds ⊢
    exact eq_of_perm_toList hkinds
  refine ⟨?_, h.path_ne, ?_, ?_, ?_, ?_, ?_, ?_⟩
  · rw [h.path] at hpaths
    exact @eq_of_perm_toList _ (some request.path) _ hpaths
  · rw [← hp.count_eq]
    exact h.json_once
  · rw [← hp.count_eq]
    exact h.zstd_once
  · rw [hsame]
    exact h.task
  · rw [← hp.mem_iff]
    exact h.json
  · rw [← hp.mem_iff]
    exact h.zstd
  · obtain ⟨hnone, hdefault⟩ | ⟨value, hone, hsize⟩ := h.limit
    · rw [hnone] at hsizes
      exact .inl ⟨@eq_of_perm_toList _ none _ hsizes, hdefault⟩
    · rw [hone] at hsizes
      exact .inr ⟨value, @eq_of_perm_toList _ (some value) _ hsizes, hsize⟩

end Orders

/-! ## Words in another order -/

/-- Units make the request that rearranged units make. -/
theorem parse?_rearranged {command : String} {units others : List (List String)}
    {request : Request} (hu : ∀ unit ∈ units, IsUnit unit) (hr : Rearranged units others)
    (h : parse? (command :: units.flatten) = some request) :
    parse? (command :: others.flatten) = some request := by
  obtain ⟨arguments, hspells⟩ := exists_arguments hu
  obtain ⟨moved, hperm, hmoved⟩ := hr.exists_perm hspells
  have hwords := arguments?_eq_some_iff.mpr (Spelled.of_units hspells)
  have hothers := arguments?_eq_some_iff.mpr (Spelled.of_units hmoved)
  obtain ⟨read, hread, h⟩ := Option.bind_eq_some_iff.mp h
  obtain rfl := Option.some.inj (hwords.symm.trans hread)
  obtain ⟨task, ht, hrequest⟩ := Option.bind_eq_some_iff.mp h
  have hasked := (request?_eq_some_iff.mp hrequest).perm ht hperm
  have hsame := request?_eq_some_iff.mpr hasked
  simp [parse?, hothers, ht, hsame]

/-- Words that make a request and hold no hyphens alone are cut into units after the command.
    However they are, the units may be put in any order, and any flag may be spelled with its value
    the other way: the same request is made, and a run of it on the same host leaves the same status
    and prints the same. -/
theorem run_rearranged (command : String) (words : List String) (request : Request)
    (hhyphens : "--" ∉ words) (h : parse? (command :: words) = some request) :
    (∃ units : List (List String), (∀ unit ∈ units, IsUnit unit) ∧ units.flatten = words) ∧
    ∀ units others : List (List String), (∀ unit ∈ units, IsUnit unit) → units.flatten = words →
      Rearranged units others →
      parse? (command :: others.flatten) = some request ∧
        ∀ host, run host (command :: others.flatten) = run host (command :: words) := by
  constructor
  · obtain ⟨arguments, ha, -⟩ := Option.bind_eq_some_iff.mp h
    obtain ⟨units, hunits, hwords⟩ := (arguments?_eq_some_iff.mp ha).exists_units hhyphens
    exact ⟨units, isUnit_of_forall₂ hunits, hwords⟩
  · rintro units others hu rfl hr
    have hothers := parse?_rearranged hu hr h
    refine ⟨hothers, fun host => ?_⟩
    simp only [run, hothers, h]

/-- Units in which the path is the name of a kind and stands behind a size. -/
def pointAsPath : List (List String) :=
  [["--max-bytes", "9"], ["point"], ["--json"], ["--as=data"]]

/-- The same units in another order, and both values spelled the other way. -/
def pointAsPathMoved : List (List String) :=
  [["--as", "data"], ["--json"], ["--max-bytes=9"], ["point"]]

theorem rearranged_pointAsPath : Rearranged pointAsPath pointAsPathMoved := by
  have hkind : Respelled ["--as" ++ "=" ++ "data"] ["--as", "data"] :=
    .detach (.inl rfl) ⟨'d', ['a', 't', 'a'], rfl, by decide⟩
  have hsize : Respelled ["--max-bytes", "9"] ["--max-bytes" ++ "=" ++ "9"] :=
    .attach (.inr rfl) ⟨'9', [], rfl, by decide⟩
  refine ⟨[["--as=data"], ["--json"], ["--max-bytes", "9"], ["point"]], by decide, ?_⟩
  exact .cons hkind (.cons (.same _) (.cons hsize (.cons (.same _) .nil)))

theorem isUnit_pointAsPath : ∀ unit ∈ pointAsPath, IsUnit unit := by
  have hsize : Spells (.maxBytes "9") ["--max-bytes", "9"] := .apart rfl rfl
  have hkind : Spells (.kind "data") ["--as" ++ "=" ++ "data"] := .attached rfl
  intro unit hmem
  simp only [pointAsPath, List.mem_cons, List.not_mem_nil, or_false] at hmem
  obtain rfl | rfl | rfl | rfl := hmem
  · exact ⟨_, hsize⟩
  · exact ⟨_, .path rfl⟩
  · exact ⟨_, .plain rfl⟩
  · exact ⟨_, hkind⟩

theorem run_rearranged_pointAsPath :
    "--" ∉ pointAsPath.flatten ∧
      parse? ("decode" :: pointAsPath.flatten) =
        some ⟨.decode "data", "point", true, { maxBytes := 9 }⟩ ∧
      parse? ("decode" :: pointAsPathMoved.flatten) =
        some ⟨.decode "data", "point", true, { maxBytes := 9 }⟩ ∧
      ∀ host, run host ("decode" :: pointAsPathMoved.flatten) =
        run host ("decode" :: pointAsPath.flatten) := by
  have hhyphens : "--" ∉ pointAsPath.flatten := by decide
  have hparse : parse? ("decode" :: pointAsPath.flatten) =
      some ⟨.decode "data", "point", true, { maxBytes := 9 }⟩ := by rfl
  have hmoved := (run_rearranged "decode" _ _ hhyphens hparse).2 pointAsPath pointAsPathMoved
    isUnit_pointAsPath rfl rearranged_pointAsPath
  exact ⟨hhyphens, hparse, hmoved⟩

end WireForm.Command

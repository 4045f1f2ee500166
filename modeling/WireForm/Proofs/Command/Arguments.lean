import WireForm.Command.Arguments

/-!
# What arguments keep of the words

A path is a word of its own and is taken as it stands, so the path of a request is one of the
words it was made of.
-/

namespace WireForm.Command

theorem valued?_path? {name value : String} {argument : Argument}
    (h : valued? name value = some argument) : argument.path? = none := by
  unfold valued? at h
  split at h
  · obtain rfl := Option.some.inj h
    rfl
  split at h
  · obtain rfl := Option.some.inj h
    rfl
  · exact nomatch h

theorem plain?_path? {name : String} {argument : Argument} (h : plain? name = some argument) :
    argument.path? = none := by
  unfold plain? at h
  split at h
  · obtain rfl := Option.some.inj h
    rfl
  split at h
  · obtain rfl := Option.some.inj h
    rfl
  · exact nomatch h

/-- The paths of the arguments are among the words, in the same order. -/
theorem paths_sublist_words {words : List String} {arguments : List Argument}
    (h : arguments? words = some arguments) :
    (arguments.filterMap Argument.path?).Sublist words := by
  fun_induction arguments? words generalizing arguments with
  | case1 =>
    obtain rfl := Option.some.inj h
    exact .slnil
  | case2 words =>
    -- After two hyphens every word is a path.
    obtain rfl := Option.some.inj h
    rw [List.filterMap_map]
    exact .cons _ (by simp [Function.comp_def, Argument.path?])
  | case3 word words _ _ name value _ ih =>
    obtain ⟨argument, ha, others, ho, rfl⟩ := by simpa [Option.bind_eq_some_iff] using h
    rw [List.filterMap_cons_none (valued?_path? ha)]
    exact .cons _ (ih ho)
  | case4 word words _ _ name _ argument ha ih =>
    obtain ⟨others, ho, rfl⟩ := by simpa [Option.bind_eq_some_iff] using h
    rw [List.filterMap_cons_none (plain?_path? ha)]
    exact .cons _ (ih ho)
  | case5 => exact nomatch h
  | case6 => exact nomatch h
  | case7 word _ _ name _ _ value words _ ih =>
    -- The value of a flag is a word of its own.
    obtain ⟨argument, ha, others, ho, rfl⟩ := by simpa [Option.bind_eq_some_iff] using h
    rw [List.filterMap_cons_none (valued?_path? ha)]
    exact .cons _ (.cons _ (ih ho))
  | case8 word words _ _ ih =>
    obtain ⟨others, ho, rfl⟩ := by simpa [Option.bind_eq_some_iff] using h
    rw [List.filterMap_cons_some (show (Argument.path word).path? = some word from rfl)]
    exact .cons_cons _ (ih ho)

theorem only?_eq_some_iff {α : Type} {items : List α} {a : α} :
    only? items = some a ↔ items = [a] := by
  unfold only?
  split <;> simp_all

/-- Arguments make a request when they hold one path, which is then the path of the request. -/
theorem paths_of_request? {arguments : List Argument} {task : List String → Option Task}
    {request : Request} (h : request? arguments task = some request) :
    arguments.filterMap Argument.path? = [request.path] := by
  obtain ⟨path, hp, h⟩ := Option.bind_eq_some_iff.mp h
  dsimp only at h
  split at h
  · exact nomatch (show none = some request from h)
  split at h
  · exact nomatch (show none = some request from h)
  obtain ⟨task, -, h⟩ := Option.bind_eq_some_iff.mp h
  obtain ⟨value?, -, h⟩ := Option.bind_eq_some_iff.mp h
  have hpath : path = request.path := by
    cases value? with
    | none =>
      obtain rfl := Option.some.inj h
      rfl
    | some value =>
      obtain ⟨size, -, h⟩ := Option.bind_eq_some_iff.mp h
      obtain rfl := Option.some.inj h
      rfl
  rw [← hpath]
  exact only?_eq_some_iff.mp hp

/-- The path of a request is a word, as it was given. -/
theorem path_mem_words {words : List String} {request : Request}
    (h : parse? words = some request) : request.path ∈ words := by
  cases words with
  | nil => exact nomatch h
  | cons command words =>
    obtain ⟨arguments, ha, h⟩ := Option.bind_eq_some_iff.mp h
    obtain ⟨task, -, hr⟩ := Option.bind_eq_some_iff.mp h
    have hpaths := paths_sublist_words ha
    rw [paths_of_request? hr] at hpaths
    exact List.mem_cons_of_mem _ (hpaths.subset (List.mem_singleton_self _))

end WireForm.Command

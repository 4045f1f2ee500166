import WireForm.Proofs.Command.Flags

/-!
# What requests keep of the words

A request holds what the flags before the two hyphens say. The flag for reports in JSON stands
anywhere between two arguments, and all it does is to ask for such a report.
-/

namespace WireForm.Command

/-! ## Requests and arguments -/

/-- That a request is what arguments ask for. -/
structure Asked (arguments : List Argument) (task : List String → Option Task)
    (request : Request) : Prop where
  path : arguments.filterMap Argument.path? = [request.path]
  path_ne : request.path ≠ ""
  json_once : arguments.count .json ≤ 1
  zstd_once : arguments.count .noZstd ≤ 1
  task : task (arguments.filterMap Argument.kind?) = some request.task
  json : request.json = true ↔ .json ∈ arguments
  zstd : request.options.allowZstd = false ↔ .noZstd ∈ arguments
  limit : arguments.filterMap Argument.maxBytes? = [] ∧ request.options.maxBytes = 67108864 ∨
    ∃ value, arguments.filterMap Argument.maxBytes? = [value] ∧
      size? value = some ⟨request.options.maxBytes, request.options.maxBytes_lt⟩

theorem atMostOne?_eq_some_iff {α : Type} {items : List α} {a : Option α} :
    atMostOne? items = some a ↔ items = a.toList := by
  unfold atMostOne?
  split
  · cases a <;> simp
  · cases a <;> simp
  · cases a <;> simp_all

section

variable {arguments : List Argument} {task : List String → Option Task} {request : Request}

/-- Arguments make the request that they ask for. -/
theorem request?_eq_some_iff :
    request? arguments task = some request ↔ Asked arguments task request := by
  constructor
  · intro h
    obtain ⟨path, hpath, h⟩ := Option.bind_eq_some_iff.mp h
    dsimp only at h
    split at h
    · exact absurd h (Option.some_ne_none request).symm
    next hne =>
    split at h
    · exact absurd h (Option.some_ne_none request).symm
    next honce =>
    obtain ⟨asked, htask, h⟩ := Option.bind_eq_some_iff.mp h
    obtain ⟨value?, hvalue, h⟩ := Option.bind_eq_some_iff.mp h
    obtain ⟨hjson, hzstd⟩ := not_or.mp honce
    have hpath := only?_eq_some_iff.mp hpath
    have hvalue := atMostOne?_eq_some_iff.mp hvalue
    cases value? with
    | none =>
      obtain rfl := Option.some.inj h
      exact ⟨hpath, hne, Nat.not_lt.mp hjson, Nat.not_lt.mp hzstd, htask, by simp, by simp,
        .inl ⟨hvalue, rfl⟩⟩
    | some value =>
      obtain ⟨size, hsize, h⟩ := Option.bind_eq_some_iff.mp h
      obtain rfl := Option.some.inj h
      exact ⟨hpath, hne, Nat.not_lt.mp hjson, Nat.not_lt.mp hzstd, htask, by simp, by simp,
        .inr ⟨value, hvalue, hsize⟩⟩
  · intro h
    have honce : ¬ (1 < arguments.count .json ∨ 1 < arguments.count .noZstd) :=
      not_or.mpr ⟨Nat.not_lt.mpr h.json_once, Nat.not_lt.mpr h.zstd_once⟩
    have hjson : arguments.contains .json = request.json := by
      rw [Bool.eq_iff_iff, List.contains_iff_mem, h.json]
    have hzstd : (!arguments.contains .noZstd) = request.options.allowZstd := by
      rw [Bool.eq_iff_iff, Bool.not_eq_true', ← Bool.not_eq_true, List.contains_iff_mem, ← h.zstd,
        Bool.not_eq_false]
    simp only [request?, h.path, only?, Option.bind_eq_bind, Option.bind_some, h.path_ne, honce,
      h.task, hjson, hzstd, if_false]
    obtain ⟨hnone, hlimit⟩ | ⟨value, hsome, hsize⟩ := h.limit
    · obtain ⟨_, _, _, _, _, _⟩ := request
      obtain rfl := hlimit
      simp [hnone, atMostOne?]
    · simp [hsome, atMostOne?, hsize]

end

/-! ## Requests and words -/

/-- The commands: one takes no kind, and the other takes one. -/
theorem task?_bind_eq_some_iff {command : String} {kinds : List String} {task : Task} :
    ((task? command).bind (· kinds)) = some task ↔
      command = "info" ∧ kinds = [] ∧ task = .info ∨
        ∃ name, command = "decode" ∧ kinds = [name] ∧ task = .decode name := by
  by_cases hinfo : command = "info"
  · subst hinfo
    cases kinds with
    | nil => simp [task?, eq_comm]
    | cons kind kinds => simp [task?]
  by_cases hdecode : command = "decode"
  · subst hdecode
    have hmap : (only? kinds).map Task.decode = some task ↔
        ∃ name, kinds = [name] ∧ task = .decode name := by
      simp only [Option.map_eq_some_iff, only?_eq_some_iff, @eq_comm _ task]
    simpa [task?] using hmap
  · simp [task?, hinfo, hdecode]

end WireForm.Command

import WireForm.Proofs.Record.Grammar

/-!
# What a kind looks at

Of a mapping a kind looks at the members under some keys and, of a record nested in a variant, at
its name alone. Mappings that look alike to a kind are read alike, faults included, whatever else
is in them and in whatever order. Nothing less would do: mappings that are read as one and the same
record look alike to its kind.
-/

namespace WireForm

open Value

/-! ## Views -/

/-- How much of a value a decoder looks at: all of it or, of a mapping, what is in view under some
    keys. -/
inductive View where
  | whole
  | members (views : List (String × View))

/-- That two slots look alike in a view: they are identical, or they hold mappings whose slots look
    alike under every key in view. -/
inductive Alike : View → Option Value → Option Value → Prop where
  | refl (view : View) (place : Option Value) : Alike view place place
  | members {views : List (String × View)} {as bs : Members}
    (h : ∀ entry ∈ views, Alike entry.2 (slot as entry.1) (slot bs entry.1)) :
    Alike (.members views) (some (.mapping as)) (some (.mapping bs))

section Views

variable {s t : Option Value} {as bs : Members}

theorem alike_whole_iff : Alike .whole s t ↔ s = t := by
  constructor
  · rintro ⟨⟩
    rfl
  · rintro rfl
    exact .refl _ _

theorem alike_members_iff {views : List (String × View)} :
    Alike (.members views) (some (.mapping as)) (some (.mapping bs)) ↔
      ∀ entry ∈ views, Alike entry.2 (slot as entry.1) (slot bs entry.1) := by
  constructor
  · rintro (_ | h)
    · exact fun _ _ => .refl _ _
    · exact h
  · exact .members

end Views

/-- What a data record is read from. -/
def Data.view : View := .members [("name", .whole)]

/-- What a kind looks at. -/
def Kind.view : Kind → View
  | .data => Data.view
  | .point => .members [("timestamp", .whole), ("value", .whole)]
  | .variant _ => .members [("name", .whole), ("data", Data.view)]
  | .interface => .members [(tagKey, .whole), ("name", .whole), ("data", Data.view)]
  | .wrapper => .members [("data", .whole)]

/-- That two mappings look alike to a kind. -/
def AlikeTo (kind : Kind) (as bs : Members) : Prop :=
  Alike kind.view (some (.mapping as)) (some (.mapping bs))

/-! ## Data records -/

section Data

variable {a b : Value} {as bs : Members} {s t : Option Value}

theorem alike_data_iff :
    Alike Data.view (some (.mapping as)) (some (.mapping bs)) ↔
      slot as "name" = slot bs "name" := by
  simp [Data.view, alike_members_iff, alike_whole_iff]

theorem Data.decode_of_alike (h : Alike Data.view (some a) (some b)) :
    Data.decode a = Data.decode b := by
  cases h with
  | refl => rfl
  | members h =>
    have hname := alike_data_iff.mp (.members h)
    simp only [Data.decode, expectMapping, ok_bind, hname]

theorem Data.alike_of_decode {record : Data} (ha : Data.decode a = .ok record)
    (hb : Data.decode b = .ok record) : Alike Data.view (some a) (some b) := by
  obtain ⟨as, rfl, has⟩ := Data.decode_eq_ok_iff.mp ha
  obtain ⟨bs, rfl, hbs⟩ := Data.decode_eq_ok_iff.mp hb
  exact alike_data_iff.mpr (has.trans hbs.symm)

theorem Variant.dataSlot_of_alike (h : Alike Data.view s t) : dataSlot s = dataSlot t := by
  cases h with
  | refl => rfl
  | members h => rw [dataSlot, dataSlot, Data.decode_of_alike (.members h)]

theorem Variant.alike_of_dataSlot {data : Option Data} (hs : dataSlot s = .ok data)
    (ht : dataSlot t = .ok data) : Alike Data.view s t := by
  -- Slots that are read alike are both empty or both filled.
  obtain ⟨rfl, rfl⟩ | ⟨a, record, rfl, rfl, ha⟩ := dataSlot_eq_ok_iff.mp hs
  · obtain ⟨rfl, -⟩ | ⟨b, record, rfl, h, hb⟩ := dataSlot_eq_ok_iff.mp ht
    · exact .refl _ _
    · exact nomatch h
  · obtain ⟨-, h⟩ | ⟨b, record', rfl, h, hb⟩ := dataSlot_eq_ok_iff.mp ht
    · exact nomatch h
    · obtain rfl := Option.some.inj h
      exact Data.alike_of_decode ha hb

end Data

/-! ## Every kind -/

section Kinds

variable {as bs : Members}

theorem alike_point_iff :
    AlikeTo .point as bs ↔
      slot as "timestamp" = slot bs "timestamp" ∧ slot as "value" = slot bs "value" := by
  simp [AlikeTo, Kind.view, alike_members_iff, alike_whole_iff]

theorem alike_variant_iff {tag : Tag} :
    AlikeTo (.variant tag) as bs ↔
      slot as "name" = slot bs "name" ∧ Alike Data.view (slot as "data") (slot bs "data") := by
  simp [AlikeTo, Kind.view, alike_members_iff, alike_whole_iff]

theorem alike_interface_iff :
    AlikeTo .interface as bs ↔
      slot as tagKey = slot bs tagKey ∧
        slot as "name" = slot bs "name" ∧ Alike Data.view (slot as "data") (slot bs "data") := by
  simp [AlikeTo, Kind.view, alike_members_iff, alike_whole_iff]

theorem alike_wrapper_iff : AlikeTo .wrapper as bs ↔ slot as "data" = slot bs "data" := by
  simp [AlikeTo, Kind.view, alike_members_iff, alike_whole_iff]

theorem Variant.decode_of_alike {tag : Tag} (h : AlikeTo (.variant tag) as bs) :
    decode tag (.mapping as) = decode tag (.mapping bs) := by
  obtain ⟨hname, hdata⟩ := alike_variant_iff.mp h
  simp only [decode, expectMapping, ok_bind, hname, dataSlot_of_alike hdata]

theorem Variant.alike_of_decode {tag : Tag} {variant : Variant}
    (ha : decode tag (.mapping as) = .ok variant) (hb : decode tag (.mapping bs) = .ok variant) :
    AlikeTo (.variant tag) as bs := by
  obtain ⟨-, _, ⟨⟩, hname, hdata⟩ := decode_eq_ok_iff.mp ha
  obtain ⟨-, _, ⟨⟩, hname', hdata'⟩ := decode_eq_ok_iff.mp hb
  exact alike_variant_iff.mpr ⟨hname.trans hname'.symm, alike_of_dataSlot hdata hdata'⟩

theorem Variant.decodeUnion_of_alike (h : AlikeTo .interface as bs) :
    decodeUnion (.mapping as) = decodeUnion (.mapping bs) := by
  obtain ⟨htag, hfields⟩ := alike_interface_iff.mp h
  -- The same variant is selected, and what a variant looks at the union looks at too.
  have hdecode (tag : Tag) : decode tag (.mapping as) = decode tag (.mapping bs) :=
    decode_of_alike (alike_variant_iff.mpr hfields)
  simp only [decodeUnion, expectMapping, ok_bind, htag, hdecode]

theorem Variant.alike_of_decodeUnion {variant : Variant}
    (ha : decodeUnion (.mapping as) = .ok variant)
    (hb : decodeUnion (.mapping bs) = .ok variant) : AlikeTo .interface as bs := by
  obtain ⟨_, ⟨⟩, htag, ha⟩ := decodeUnion_eq_ok_iff.mp ha
  obtain ⟨_, ⟨⟩, htag', hb⟩ := decodeUnion_eq_ok_iff.mp hb
  have hfields := alike_variant_iff.mp (alike_of_decode ha hb)
  exact alike_interface_iff.mpr ⟨htag.trans htag'.symm, hfields⟩

/-- A point is read by its slots, and by the shape of the value where one of them is empty. -/
theorem Point.ofSlots_congr {a b : Value} (h : a.shape = b.shape) (expected : Expected)
    (timestamp value : Option Value) :
    ofSlots a expected timestamp value = ofSlots b expected timestamp value := by
  rw [ofSlots, ofSlots, h]

theorem Point.decode_of_alike (h : AlikeTo .point as bs) :
    decode (.mapping as) = decode (.mapping bs) := by
  obtain ⟨ht, hv⟩ := alike_point_iff.mp h
  rw [decode, decode, ht, hv]
  exact ofSlots_congr rfl _ _ _

theorem Point.alike_of_decode {point : Point} (ha : decode (.mapping as) = .ok point)
    (hb : decode (.mapping bs) = .ok point) : AlikeTo .point as bs := by
  obtain ⟨m, n, ht, hv, rfl⟩ := ofSlots_eq_ok_iff.mp ha
  obtain ⟨_, _, ht', hv', ⟨⟩⟩ := ofSlots_eq_ok_iff.mp hb
  exact alike_point_iff.mpr ⟨ht.trans ht'.symm, hv.trans hv'.symm⟩

theorem Wrapper.decode_of_alike (h : AlikeTo .wrapper as bs) :
    decode (.mapping as) = decode (.mapping bs) := by
  rw [decode, decode, alike_wrapper_iff.mp h]

theorem Wrapper.alike_of_decode {wrapper : Wrapper} (ha : decode (.mapping as) = .ok wrapper)
    (hb : decode (.mapping bs) = .ok wrapper) : AlikeTo .wrapper as bs := by
  have hdata := congrArg Wrapper.data (Except.ok.inj (ha.trans hb.symm))
  exact alike_wrapper_iff.mpr hdata

/-- Mappings that look alike to a kind are read alike: as one record, or with one error. -/
theorem Record.decode_of_alike {kind : Kind} (h : AlikeTo kind as bs) :
    decode kind (.mapping as) = decode kind (.mapping bs) := by
  cases kind with
  | data => rw [decode, decode, Data.decode_of_alike h]
  | point => rw [decode, decode, Point.decode_of_alike h]
  | variant tag => rw [decode, decode, Variant.decode_of_alike h]
  | interface => rw [decode, decode, Variant.decodeUnion_of_alike h]
  | wrapper => rw [decode, decode, Wrapper.decode_of_alike h]

/-- Readings that are made into one record were one and the same reading. -/
theorem exists_ok_of_wrapped {α : Type} {x y : Except Error α} {wrap : α → Record}
    {record : Record} (hwrap : ∀ a b, wrap a = wrap b → a = b)
    (hx : (do return wrap (← x)) = .ok record) (hy : (do return wrap (← y)) = .ok record) :
    ∃ a, x = .ok a ∧ y = .ok a := by
  obtain ⟨a, hxa, ha⟩ := bind_eq_ok_iff.mp hx
  obtain ⟨b, hyb, hb⟩ := bind_eq_ok_iff.mp hy
  obtain rfl := hwrap a b (Except.ok.inj (ha.trans hb.symm))
  exact ⟨a, hxa, hyb⟩

/-- Mappings that are read as one record look alike to its kind. -/
theorem Record.alike_of_decode {kind : Kind} {record : Record}
    (ha : decode kind (.mapping as) = .ok record) (hb : decode kind (.mapping bs) = .ok record) :
    AlikeTo kind as bs := by
  cases kind with
  | data =>
    obtain ⟨_, ha, hb⟩ := exists_ok_of_wrapped (fun _ _ => Record.data.inj) ha hb
    exact Data.alike_of_decode ha hb
  | point =>
    obtain ⟨_, ha, hb⟩ := exists_ok_of_wrapped (fun _ _ => Record.point.inj) ha hb
    exact Point.alike_of_decode ha hb
  | variant tag =>
    obtain ⟨_, ha, hb⟩ := exists_ok_of_wrapped (fun _ _ => Record.variant.inj) ha hb
    exact Variant.alike_of_decode ha hb
  | interface =>
    obtain ⟨_, ha, hb⟩ := exists_ok_of_wrapped (fun _ _ => Record.interface.inj) ha hb
    exact Variant.alike_of_decodeUnion ha hb
  | wrapper =>
    obtain ⟨_, ha, hb⟩ := exists_ok_of_wrapped (fun _ _ => Record.wrapper.inj) ha hb
    exact Wrapper.alike_of_decode ha hb

end Kinds

/-- A kind sees of a mapping what is in its view and nothing else. Mappings that look alike to it
    are read alike, as one record or with one error, and mappings that are read as one record do
    look alike to it. Likewise sequences are read as points by the slots of their first two items
    alone. -/
theorem Record.decode_sees_view :
    (∀ kind as bs, AlikeTo kind as bs →
      decode kind (.mapping as) = decode kind (.mapping bs)) ∧
    (∀ kind as bs record, decode kind (.mapping as) = .ok record →
      decode kind (.mapping bs) = .ok record → AlikeTo kind as bs) ∧
    ∀ as bs, slotAt as 0 = slotAt bs 0 → slotAt as 1 = slotAt bs 1 →
      decode .point (.sequence as) = decode .point (.sequence bs) := by
  refine ⟨fun _ _ _ => decode_of_alike, fun _ _ _ _ => alike_of_decode, ?_⟩
  intro as bs ht hv
  rw [decode, decode, Point.decode, Point.decode, ht, hv]
  exact congrArg (· >>= _) (Point.ofSlots_congr rfl _ _ _)

/-- A union without a name. -/
def nameless : Members :=
  [("type", .string "one"), ("data", .mapping [("name", .string "inner")])]

/-- The same union with `null` as name, in another order and with members that are not in view. -/
def nameNull : Members :=
  [("data", .mapping [("note", .bool true), ("name", .string "inner")]), ("name", .null),
    ("more", .sequence []), ("type", .string "one")]

theorem Record.decode_sees_view_nameNull :
    AlikeTo .interface nameless nameNull ∧
      decode .interface (.mapping nameless) = decode .interface (.mapping nameNull) ∧
      decode .interface (.mapping nameNull) =
        .ok (.interface ⟨.one, none, some ⟨some "inner"⟩⟩) := by
  have halike : AlikeTo .interface nameless nameNull :=
    alike_interface_iff.mpr ⟨rfl, rfl, alike_data_iff.mpr rfl⟩
  exact ⟨halike, decode_sees_view.1 _ _ _ halike, by rfl⟩

end WireForm

import Spool.Config.Format
import Spool.Proofs.Json.Reading

namespace Spool

namespace Span

theorem ofJson?_toJson (s : Span) : ofJson? s.toJson = some s := by
  have hsecs : Json.below? UInt64.size (.ofNat s.secs.toNat) = some s.secs.toNat :=
    Json.below?_ofNat s.secs.toNat_lt
  have hnanos : Json.below? UInt32.size (.ofNat s.nanos) = some s.nanos :=
    Json.below?_ofNat (Nat.lt_trans s.nanos_lt (by decide))
  have hparts : ofJsonParts? (.ofNat s.secs.toNat) (.ofNat s.nanos) = some s := by
    simp [ofJsonParts?, hsecs, hnanos, ofParts?_self]
  have hfirst : Json.unescape? "secs".toList = some "secs".toList :=
    Json.unescape?_written "secs".toList
  have hsecond : Json.unescape? "nanos".toList = some "nanos".toList :=
    Json.unescape?_written "nanos".toList
  simp only [toJson, ofJson?, hfirst, hsecond, and_self, if_true, hparts]

theorem parse?_render_toJson (s : Span) : Json.parse? s.toJson.render = some s.toJson := by
  apply Json.parse?_render_object
  intro m hm
  simp only [List.mem_cons, List.not_mem_nil, or_false] at hm
  obtain rfl | rfl := hm
  · exact ⟨rfl, Json.parse?_render_ofNat _⟩
  · exact ⟨rfl, Json.parse?_render_ofNat _⟩

end Span

namespace Config

-- The value of an option.
def Field.setting (c : Config) : Field → Setting
  | basePath => .basePath c.basePath
  | name => .name c.name
  | dataPageSize => .dataPageSize c.dataPageSize
  | pageTtl => .pageTtl c.pageTtl
  | sweepInterval => .sweepInterval c.sweepInterval

-- A member of an object that is read as a configuration: an option, or a text and what it says.
inductive Part where
  | option (field : Field)
  | other (text : List Char × List Char) (member : List Char × Json)

namespace Part

-- An option stands as it is written of a configuration.
def text (c : Config) : Part → List Char × List Char
  | option field => Json.renderedTexts (field.member c)
  | other text _ => text

def member (c : Config) : Part → List Char × Json
  | option field => field.member c
  | other _ member => member

-- Another member has a text of any value under a name that is none of the options.
def IsValid : Part → Prop
  | option _ => True
  | other text member => Json.IsMemberText text member ∧
      ∃ name, Json.unescape? member.1 = some name ∧ ∀ field : Field, field.key.toList ≠ name

def field? : Part → Option Field
  | option field => some field
  | other _ _ => none

end Part

-- The options that are among the members.
def options (parts : List Part) : List Field :=
  parts.filterMap Part.field?

section

variable {c d : Config} {field : Field} {parts : List Part} {part : Part} {seen : List Field}

namespace Field

theorem read?_toJson (field : Field) (c : Config) :
    field.read? (field.toJson c) = some (field.setting c) := by
  have hstring (s : String) : (Json.ofString s).string? = some s := by
    simp [Json.ofString, Json.string?, Json.unescape?_written]
  have hsize : Json.below? UInt64.size (.ofNat c.dataPageSize.toNat) = some c.dataPageSize.toNat :=
    Json.below?_ofNat c.dataPageSize.toNat_lt
  cases field with
  | basePath => simp [read?, toJson, hstring, setting]
  | name => simp [read?, toJson, hstring, setting]
  | dataPageSize => simp [read?, toJson, hsize, setting]
  | pageTtl => simp [read?, toJson, Span.ofJson?_toJson, setting]
  | sweepInterval => simp [read?, toJson, Span.ofJson?_toJson, setting]

theorem written_key (field : Field) : Json.written field.key.toList = field.key.toList := by
  cases field <;> rfl

theorem ofKey?_key (field : Field) : ofKey? field.key.toList = some field := by
  cases field <;> rfl

theorem ofKey?_eq_none {name : List Char} (h : ∀ field : Field, field.key.toList ≠ name) :
    ofKey? name = none := by
  apply List.find?_eq_none.mpr
  intro field _
  simpa using h field

theorem parse?_render_toJson (field : Field) (c : Config) :
    Json.parse? (field.toJson c).render = some (field.toJson c) := by
  cases field with
  | basePath => exact Json.parse?_render_ofString _
  | name => exact Json.parse?_render_ofString _
  | dataPageSize => exact Json.parse?_render_ofNat _
  | pageTtl => exact Span.parse?_render_toJson _
  | sweepInterval => exact Span.parse?_render_toJson _

theorem isMemberText_member (field : Field) (c : Config) :
    Json.IsMemberText (Json.renderedTexts (field.member c)) (field.member c) :=
  Json.isMemberText_rendered (written_key field) (field.parse?_render_toJson c)

-- A setting changes its own option and no other.
theorem setting_set (field other : Field) (c d : Config) :
    field.setting (d.set (other.setting c)) =
      if field = other then field.setting c else field.setting d := by
  cases field <;> cases other <;> rfl

theorem mem_all (field : Field) : field ∈ all := by
  cases field <;> decide

end Field

-- A configuration is what its options are.
theorem eq_of_settings (h : ∀ field : Field, field.setting c = field.setting d) : c = d := by
  obtain ⟨basePath, name, dataPageSize, pageTtl, sweepInterval⟩ := c
  obtain rfl := Setting.basePath.inj (h .basePath)
  obtain rfl := Setting.name.inj (h .name)
  obtain rfl := Setting.dataPageSize.inj (h .dataPageSize)
  obtain rfl := Setting.pageTtl.inj (h .pageTtl)
  obtain rfl := Setting.sweepInterval.inj (h .sweepInterval)
  rfl

theorem readMembers_option (hfield : field ∉ seen) (rest : List (List Char × Json)) :
    readMembers d seen (field.member c :: rest) =
      readMembers (d.set (field.setting c)) (field :: seen) rest := by
  have hname : Json.unescape? field.key.toList = some field.key.toList := by
    have h := Json.unescape?_written field.key.toList
    rwa [field.written_key] at h
  rw [Field.member, readMembers, hname]
  simp only [Field.ofKey?_key, hfield, if_false, Field.read?_toJson]

theorem readMembers_other {member : List Char × Json} {name : List Char}
    (hname : Json.unescape? member.1 = some name) (hother : ∀ field : Field, field.key.toList ≠ name)
    (rest : List (List Char × Json)) :
    readMembers d seen (member :: rest) = readMembers d seen rest := by
  obtain ⟨written, value⟩ := member
  rw [readMembers, hname]
  simp only [Field.ofKey?_eq_none hother]

-- What is read of some members goes over what was there before.
theorem readMembers_parts (hvalid : ∀ part ∈ parts, part.IsValid) (hnodup : (options parts).Nodup)
    (hseen : ∀ field ∈ options parts, field ∉ seen) :
    ∃ e, readMembers d seen (parts.map (Part.member c)) = some e ∧
      ∀ field : Field, field.setting e =
        if field ∈ options parts then field.setting c else field.setting d := by
  induction parts generalizing d seen with
  | nil => exact ⟨d, rfl, fun field => rfl⟩
  | cons part parts ih =>
      have hrest : ∀ p ∈ parts, p.IsValid := fun p hp => hvalid p (List.mem_cons_of_mem part hp)
      cases part with
      | other text member =>
          obtain ⟨-, name, hname, hother⟩ := hvalid _ List.mem_cons_self
          obtain ⟨e, he, hsettings⟩ := ih (d := d) hrest hnodup hseen
          exact ⟨e, (readMembers_other hname hother _).trans he, hsettings⟩
      | option first =>
          obtain ⟨hfirst, hmore⟩ := List.nodup_cons.mp hnodup
          have hnew : first ∉ seen := hseen first List.mem_cons_self
          have hunseen : ∀ field ∈ options parts, field ∉ first :: seen := by
            intro field hfield hmem
            obtain rfl | hmem := List.mem_cons.mp hmem
            · exact hfirst hfield
            · exact hseen field (List.mem_cons_of_mem first hfield) hmem
          obtain ⟨e, he, hsettings⟩ := ih (d := d.set (first.setting c)) hrest hmore hunseen
          refine ⟨e, (readMembers_option hnew _).trans he, fun field => ?_⟩
          have hmem : field ∈ options (.option first :: parts) ↔
              field = first ∨ field ∈ options parts := List.mem_cons
          rw [hsettings, Field.setting_set]
          by_cases hcover : field ∈ options parts
          · rw [if_pos hcover, if_pos (hmem.mpr (.inr hcover))]
          · by_cases heq : field = first
            · rw [if_neg hcover, if_pos heq, if_pos (hmem.mpr (.inl heq))]
            · rw [if_neg hcover, if_neg heq, if_neg fun h => (hmem.mp h).elim heq hcover]

theorem Part.isMemberText (h : part.IsValid) : Json.IsMemberText (part.text c) (part.member c) := by
  cases part with
  | option field => exact field.isMemberText_member c
  | other text member => exact h.1

theorem parse?_parts (hvalid : ∀ part ∈ parts, part.IsValid) (hnodup : (options parts).Nodup) :
    ∃ d, parse? (String.ofList (Json.objectText (parts.map (Part.text c)))) = some d ∧
      ∀ field : Field, field.setting d =
        if field ∈ options parts then field.setting c else field.setting standard := by
  have hseen : ∀ field ∈ options parts, field ∉ ([] : List Field) := fun _ _ => List.not_mem_nil
  obtain ⟨d, hd, hsettings⟩ := readMembers_parts (c := c) (d := standard) hvalid hnodup hseen
  refine ⟨d, ?_, hsettings⟩
  rw [parse?, Json.parse?_objectText fun part hpart => Part.isMemberText (hvalid part hpart)]
  exact hd

-- A configuration's own text has all of its options and nothing else.
theorem parse?_render (c : Config) : parse? c.render = some c := by
  have htext : String.ofList (Json.objectText ((Field.all.map Part.option).map (Part.text c))) =
      c.render := by
    rw [render, toJson, ← String.ofList_toList (s := Json.render _), Json.toList_render_object,
      List.map_map, List.map_map]
    rfl
  have hvalid : ∀ part ∈ Field.all.map Part.option, part.IsValid := by simp [Part.IsValid]
  obtain ⟨d, hd, hsettings⟩ := parse?_parts (c := c) hvalid (by decide)
  rw [htext] at hd
  have heq : d = c := eq_of_settings fun field => by
    have hmem : field ∈ options (Field.all.map Part.option) := field.mem_all
    rw [hsettings, if_pos hmem]
  rw [hd, heq]

end

-- A text of some options and of members of other names is read, and what is read has the values of
-- these options and the standard values of all others. With all options, it is the configuration.
theorem overlay_law (c : Config) (parts : List Part) (hvalid : ∀ part ∈ parts, part.IsValid)
    (hnodup : (options parts).Nodup) :
    (∃ d, parse? (String.ofList (Json.objectText (parts.map (Part.text c)))) = some d ∧
      ∀ field : Field, field.setting d =
        if field ∈ options parts then field.setting c else field.setting standard) ∧
    parse? c.render = some c :=
  ⟨parse?_parts hvalid hnodup, parse?_render c⟩

-- Two of the options, the last before the first, with a member of another name in front.
def partsMixed : List Part :=
  [.other ("\"ttl\"".toList, "[1e9,\x7b\x7d]".toList)
      ("ttl".toList, .array [.number "1e9".toList, .object []]),
    .option .sweepInterval, .option .basePath]

def configMixed : Config :=
  { standard with
    basePath := ⟨"a\"b\n"⟩
    dataPageSize := 33554432
    sweepInterval := Span.ofMillis 1500 }

theorem overlay_law_mixed :
    String.ofList (Json.objectText (partsMixed.map (Part.text configMixed))) =
      "\x7b\"ttl\":[1e9,\x7b\x7d],\"sweep_interval\":\x7b\"secs\":1,\"nanos\":500000000\x7d" ++
        ",\"base_path\":\"a\\\"b\\n\"\x7d" ∧
    (∀ part ∈ partsMixed, part.IsValid) ∧ (options partsMixed).Nodup ∧
    parse? (String.ofList (Json.objectText (partsMixed.map (Part.text configMixed)))) =
      some { standard with basePath := ⟨"a\"b\n"⟩, sweepInterval := Span.ofMillis 1500 } := by
  have htext : Json.IsMemberText ("\"ttl\"".toList, "[1e9,\x7b\x7d]".toList)
      ("ttl".toList, .array [.number "1e9".toList, .object []]) :=
    ⟨by decide, by rfl⟩
  have hvalid : ∀ part ∈ partsMixed, part.IsValid := by
    intro part hpart
    simp only [partsMixed, List.mem_cons, List.not_mem_nil, or_false] at hpart
    obtain rfl | rfl | rfl := hpart
    · exact ⟨htext, "ttl".toList, Json.unescape?_written "ttl".toList,
        fun field => by cases field <;> decide⟩
    · trivial
    · trivial
  have hnodup : (options partsMixed).Nodup := by decide
  obtain ⟨⟨d, hd, hsettings⟩, -⟩ := overlay_law configMixed partsMixed hvalid hnodup
  refine ⟨by rfl, hvalid, hnodup, hd.trans (congrArg some ?_)⟩
  apply eq_of_settings
  intro field
  rw [hsettings]
  cases field <;> rfl

end Config

end Spool

/-
  Chip8.Proofs.NameLookup

  How dialects and policies are found by their names. Both are looked up in a list of names
  (`Text.lookUp`), after the name was brought into normal form, and the form that was looked up
  is what an error tells. What the normal form is, is said without the functions that compute it
  (`Text.IsNormalForm`): what is left between the blanks at the ends, with the capital letters of
  ASCII made small and nothing else changed. As the normal form of a normal form is itself, it
  does not matter whether a name from the environment is normalized once or twice.
-/
import Chip8.Proofs.Names

namespace Chip8

namespace Text

/-! ## The normal form -/

/-- A character with the 26 capital letters of ASCII made small. -/
def asciiLower (c : Char) : Char :=
  if 0x41 ≤ c.toNat ∧ c.toNat ≤ 0x5A then Char.ofNat (c.toNat + 0x20) else c

/-- `form` is what is left of `name` between the blanks at its ends, with the capital letters of
    ASCII made small. -/
def IsNormalForm (name form : String) : Prop :=
  ∃ front core back : List Char, name.toList = front ++ core ++ back ∧
    (∀ c ∈ front ++ back, isBlank c = true) ∧
    (∀ c ∈ core.head?, isBlank c = false) ∧ (∀ c ∈ core.getLast?, isBlank c = false) ∧
    form.toList = core.map asciiLower

theorem toLower_eq_asciiLower (c : Char) : c.toLower = asciiLower c := by
  unfold asciiLower
  split
  · next hcapital => rw [← toNat_toLower hcapital, Char.ofNat_toNat]
  · next hother => exact toLower_of_not_capital hother

/-- A text is what trimming leaves of it, between blanks. -/
theorem exists_eq_append_trim (cs : List Char) :
    ∃ front back, cs = front ++ trim cs ++ back ∧ ∀ c ∈ front ++ back, isBlank c = true := by
  refine ⟨cs.takeWhile isBlank, (cs.dropWhile isBlank).rtakeWhile isBlank, ?_, ?_⟩
  · rw [trim_eq, List.append_assoc, List.rdropWhile_append_rtakeWhile,
      List.takeWhile_append_dropWhile]
  · intro c hc
    rcases List.mem_append.mp hc with hfront | hback
    · exact List.mem_takeWhile_imp hfront
    · exact List.mem_rtakeWhile_imp hback

theorem head_trim {cs : List Char} {c : Char} (h : c ∈ (trim cs).head?) : isBlank c = false := by
  have hhead := List.head?_dropWhile_not isBlank (trim cs)
  rw [dropWhile_trim, Option.mem_def.mp h] at hhead
  exact hhead

theorem getLast_trim {cs : List Char} {c : Char} (h : c ∈ (trim cs).getLast?) :
    isBlank c = false := by
  obtain ⟨hne, rfl⟩ := List.mem_getLast?_eq_getLast h
  exact Bool.eq_false_iff.mpr (List.rdropWhile_last_not isBlank _ hne)

/-- Blanks in front of a text that begins with something else can be told from it. -/
theorem dropWhile_blanks {front cs : List Char} (hfront : ∀ c ∈ front, isBlank c = true)
    (hhead : ∀ c ∈ cs.head?, isBlank c = false) : (front ++ cs).dropWhile isBlank = cs := by
  rw [List.dropWhile_append_of_pos hfront]
  cases cs with
  | nil => rfl
  | cons c cs =>
      have hc : isBlank c = false := hhead c rfl
      exact List.dropWhile_cons_of_neg (by rw [hc]; decide)

/-- Trimming takes off all the blanks at the ends, and no more. -/
theorem trim_append {front core back : List Char}
    (hblank : ∀ c ∈ front ++ back, isBlank c = true)
    (hhead : ∀ c ∈ core.head?, isBlank c = false)
    (hlast : ∀ c ∈ core.getLast?, isBlank c = false) : trim (front ++ core ++ back) = core := by
  obtain ⟨hfront, hback⟩ := List.forall_mem_append.mp hblank
  by_cases hnil : core = []
  · have hnone : (front ++ back).dropWhile isBlank = [] := List.dropWhile_eq_nil_iff.mpr hblank
    rw [hnil, List.append_nil, trim, hnone]
    rfl
  · -- what comes behind does not change the first character
    have hfirst : ∀ c ∈ (core ++ back).head?, isBlank c = false := by
      rwa [List.head?_append_of_ne_nil _ hnil]
    have hreverse : ∀ c ∈ back.reverse, isBlank c = true := by
      intro c hc
      exact hback c (List.mem_reverse.mp hc)
    -- from the other end the blanks behind are those in front
    rw [trim, List.append_assoc, dropWhile_blanks hfront hfirst, List.reverse_append,
      dropWhile_blanks hreverse (by rwa [List.head?_reverse]), List.reverse_reverse]

theorem isNormalForm_normalize (name : String) : IsNormalForm name (normalize name) := by
  obtain ⟨front, back, happend, hblank⟩ := exists_eq_append_trim name.toList
  refine ⟨front, trim name.toList, back, happend, hblank, ?_, ?_, ?_⟩
  · intro c hc
    exact head_trim hc
  · intro c hc
    exact getLast_trim hc
  · rw [normalize, String.toList_ofList]
    exact List.map_congr_left fun c _ => toLower_eq_asciiLower c

/-- A name has one normal form. -/
theorem isNormalForm_iff {name form : String} :
    IsNormalForm name form ↔ form = normalize name := by
  constructor
  · rintro ⟨front, core, back, happend, hblank, hhead, hlast, hform⟩
    apply String.toList_injective
    rw [hform, normalize, String.toList_ofList, happend, trim_append hblank hhead hlast]
    exact List.map_congr_left fun c _ => (toLower_eq_asciiLower c).symm
  · rintro rfl
    exact isNormalForm_normalize name

/-! ## Reading names -/

section

variable {α : Type}

/-- What is told about `name` by a function that reads names for a setting: it finds a value
    exactly if that is in the list under the normal form of the name, its error quotes the
    normal form, and it makes no difference between a name and its normal form. -/
structure ReadsNames (read : String → Except UnknownName α) (names : List (String × α))
    (variableName allowed : String) (name : String) : Prop where
  ok_iff : ∀ value, read name = .ok value ↔ (normalize name, value) ∈ names
  message : ∀ error, read name = .error error →
    error.message = "invalid " ++ variableName ++ " '" ++ normalize name ++
      "', expected one of: " ++ allowed
  normalized : read (normalize name) = read name

/-- In a list without repeated names, looking up finds everything. -/
theorem lookup_eq_some_iff_mem {names : List (String × α)} (h : (names.map Prod.fst).Nodup)
    {name : String} {value : α} : names.lookup name = some value ↔ (name, value) ∈ names := by
  constructor
  · intro hlookup
    obtain ⟨before, after, rfl, -⟩ := List.lookup_eq_some_iff.mp hlookup
    exact List.mem_append_right before List.mem_cons_self
  · intro hmem
    obtain ⟨before, after, rfl⟩ := List.append_of_mem hmem
    rw [List.map_append, List.map_cons] at h
    -- the names in front are others, so this entry is the first with its name
    refine List.lookup_eq_some_iff.mpr ⟨before, after, rfl, ?_⟩
    intro entry hentry
    have hne := (List.nodup_append.mp h).2.2 entry.1 (List.mem_map_of_mem hentry) name
      List.mem_cons_self
    exact bne_iff_ne.mpr hne.symm

theorem readsNames_lookUp (variableName : String) (allowed : List String)
    {names : List (String × α)} (h : (names.map Prod.fst).Nodup) (name : String) :
    ReadsNames (lookUp variableName allowed names) names variableName (", ".intercalate allowed)
      name where
  ok_iff := by
    intro value
    rw [← lookup_eq_some_iff_mem h, ← toOption_lookUp variableName allowed]
    cases lookUp variableName allowed names name with
    | _ => simp [Except.toOption]
  message := by
    intro error herror
    rw [lookUp] at herror
    cases hfound : names.lookup (normalize name) with
    | none =>
        rw [hfound] at herror
        cases herror
        rfl
    | some found =>
        rw [hfound] at herror
        cases herror
  normalized := lookUp_normalize variableName allowed names name

end

end Text

/-! ## The environment -/

/-- A variable that is set to a text reads as the text. -/
theorem Environment.text_of_set {environment : Environment} {variableName name : String}
    (h : environment variableName = some name.toUTF8) (default : String) :
    environment.text variableName default = name := by
  have hread : String.fromUTF8? name.toUTF8 = some name := by
    rw [String.fromUTF8?, String.toUTF8_eq_toByteArray, dif_pos name.isValidUTF8]
    rfl
  rw [text, h, Option.bind_some, hread, Option.getD_some]

/-- The dialect of the environment is the one that the variable names. Its name is normalized
    twice on the way, which comes to the same as once. -/
theorem Dialect.ofEnvironment_eq (environment : Environment) :
    ofEnvironment environment =
      (ofName (environment.text variableName "original")).map fun dialect =>
        (Text.normalize (environment.text variableName "original"), dialect) := by
  have hnormalized : ofName (Text.normalize (environment.text variableName "original")) =
      ofName (environment.text variableName "original") := by
    rw [ofName_eq_lookUp, Text.lookUp_normalize, ← ofName_eq_lookUp]
  simp only [ofEnvironment, hnormalized]
  cases ofName (environment.text variableName "original") with
  | _ => rfl

/-- Names are compared in their normal form, which is what is left between the blanks at the ends
    with the capital letters of ASCII made small. Dialects and policies are found exactly under
    the normal forms in their lists, and their errors quote the normal form. It does not matter
    how often a name is normalized, and a name that comes from the environment gives what it gives
    as it stands; the dialect comes with the normal form of its name. -/
theorem names_compare_in_normal_form (name : String) :
    (∀ form, Text.IsNormalForm name form ↔ form = Text.normalize name) ∧
    Text.normalize (Text.normalize name) = Text.normalize name ∧
    Text.ReadsNames Dialect.ofName [("original", .classic), ("modern", .modern)]
      "CHIP8_QUIRKS" "modern, original" name ∧
    Text.ReadsNames UnknownWordPolicy.ofName [("halt", .halt), ("skip", .skip)]
      "CHIP8_UNKNOWN_OPCODE" "halt, skip" name ∧
    ∀ environment : Environment,
      (environment "CHIP8_QUIRKS" = some name.toUTF8 →
        Dialect.ofEnvironment environment =
          (Dialect.ofName name).map fun dialect => (Text.normalize name, dialect)) ∧
      (environment "CHIP8_UNKNOWN_OPCODE" = some name.toUTF8 →
        UnknownWordPolicy.ofEnvironment environment = UnknownWordPolicy.ofName name) := by
  refine ⟨fun _ => Text.isNormalForm_iff, Text.normalize_normalize name, ?_, ?_, ?_⟩
  · rw [funext Dialect.ofName_eq_lookUp]
    exact Text.readsNames_lookUp _ _ (by decide) name
  · rw [funext UnknownWordPolicy.ofName_eq_lookUp]
    exact Text.readsNames_lookUp _ _ (by decide) name
  · intro environment
    refine ⟨?_, ?_⟩
    · intro hset
      have htext : environment.text Dialect.variableName "original" = name :=
        Environment.text_of_set hset "original"
      rw [Dialect.ofEnvironment_eq, htext]
    · intro hset
      exact congrArg UnknownWordPolicy.ofName (Environment.text_of_set hset "halt")

/-- An em space in front and a line end behind go, and the capital M becomes small. Blanks inside
    a name stay, and so does a capital letter that is not in ASCII. -/
theorem names_compare_in_normal_form_emSpace :
    let environment : Environment := fun variableName =>
      if variableName = "CHIP8_QUIRKS" then some "\u2003Modern\n".toUTF8
      else if variableName = "CHIP8_UNKNOWN_OPCODE" then some "É  Skip".toUTF8
      else none
    (environment "CHIP8_QUIRKS" = some "\u2003Modern\n".toUTF8 ∧
      environment "CHIP8_UNKNOWN_OPCODE" = some "É  Skip".toUTF8) ∧
    Dialect.ofEnvironment environment = .ok ("modern", .modern) ∧
    ∃ error, UnknownWordPolicy.ofEnvironment environment = .error error ∧
      error.message = "invalid CHIP8_UNKNOWN_OPCODE 'É  skip', expected one of: halt, skip" := by
  intro environment
  have hdialect : environment "CHIP8_QUIRKS" = some "\u2003Modern\n".toUTF8 := if_pos rfl
  have hpolicy : environment "CHIP8_UNKNOWN_OPCODE" = some "É  Skip".toUTF8 :=
    (if_neg (by decide)).trans (if_pos rfl)
  obtain ⟨-, -, hread, -, hdialects⟩ := names_compare_in_normal_form "\u2003Modern\n"
  obtain ⟨-, -, -, hquotes, hpolicies⟩ := names_compare_in_normal_form "É  Skip"
  have hmodern : Text.normalize "\u2003Modern\n" = "modern" := by decide
  have hskip : Text.normalize "É  Skip" = "É  skip" := by decide
  refine ⟨⟨hdialect, hpolicy⟩, ?_, ?_⟩
  · have hfound := (hread.ok_iff .modern).mpr (by rw [hmodern]; decide)
    rw [(hdialects environment).1 hdialect, hfound, hmodern]
    rfl
  · rw [(hpolicies environment).2 hpolicy]
    cases hfound : UnknownWordPolicy.ofName "É  Skip" with
    | ok policy =>
        have hmem := (hquotes.ok_iff policy).mp hfound
        rw [hskip] at hmem
        simp at hmem
    | error error =>
        refine ⟨error, rfl, ?_⟩
        rw [hquotes.message error hfound, hskip]
        decide

end Chip8

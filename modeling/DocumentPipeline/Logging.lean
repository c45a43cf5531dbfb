import DocumentPipeline.Records
import Mathlib.Data.List.Infix
import Mathlib.Data.List.Forall2

/-! The two processors that keep credentials and documents out of the log.
`redact_sensitive` looks at the keys of an event and of the dicts that are its
values, `truncate_long_values` at the values of the event only, and exceptions
are rendered after both. `lower` stands for `str.lower`. -/

namespace DocumentPipeline.Logging

abbrev Fields := List (String × Json)

def sensitiveKeys : List String :=
  ["api_key", "authorization", "credentials", "database_url", "openai_api_key", "password",
    "redis_url", "secret", "token"]

def maxValueChars : Nat := 1000

def redacted : Json := .str "***redacted***"

def isSensitive (lower : String → String) (key : String) : Bool :=
  let lowered := lower key
  lowered ∈ sensitiveKeys || "api_key".toList <:+: lowered.toList ||
    "password".toList <:+: lowered.toList || "secret".toList <:+: lowered.toList ||
    "_token".toList <:+ lowered.toList

section Processors
variable (lower : String → String)

def mask (show_ : Json → Json) (fields : Fields) : Fields :=
  fields.map fun field => (field.1, if isSensitive lower field.1 then redacted else show_ field.2)

def redactValue : Json → Json
  | .obj fields => .obj (mask lower id fields)
  | value => value

def redactSensitive (event : Fields) : Fields := mask lower (redactValue lower) event

def marker (length : Nat) : String := s!"... [truncated {length} chars]"

def clip (value : String) : String :=
  if value.length > maxValueChars then
    String.ofList (value.toList.take maxValueChars) ++ marker value.length
  else value

def truncateValue : Json → Json
  | .str value => .str (clip value)
  | value => value

def truncateLongValues (event : Fields) : Fields :=
  event.map fun field => (field.1, truncateValue field.2)

end Processors

section Redaction
variable (lower : String → String)

mutual

/-- Two values that differ only in what is held under sensitive keys. -/
inductive Agree : Json → Json → Prop
  | null : Agree .null .null
  | bool (value : Bool) : Agree (.bool value) (.bool value)
  | num (value : ℚ) : Agree (.num value) (.num value)
  | str (value : String) : Agree (.str value) (.str value)
  | arr {items others : List Json} : AgreeItems items others → Agree (.arr items) (.arr others)
  | obj {fields others : Fields} : AgreeFields fields others → Agree (.obj fields) (.obj others)

inductive AgreeItems : List Json → List Json → Prop
  | nil : AgreeItems [] []
  | cons {value other : Json} {items others : List Json} : Agree value other →
      AgreeItems items others → AgreeItems (value :: items) (other :: others)

inductive AgreeFields : Fields → Fields → Prop
  | nil : AgreeFields [] []
  | masked {key : String} (value other : Json) {fields others : Fields} :
      isSensitive lower key = true → AgreeFields fields others →
      AgreeFields ((key, value) :: fields) ((key, other) :: others)
  | shown {key : String} {value other : Json} {fields others : Fields} : Agree value other →
      AgreeFields fields others → AgreeFields ((key, value) :: fields) ((key, other) :: others)

end

def Shown (related : Json → Json → Prop) : Fields → Fields → Prop :=
  List.Forall₂ fun field other =>
    field.1 = other.1 ∧ (isSensitive lower field.1 = true ∨ related field.2 other.2)

/-- The difference lies under sensitive keys of the value itself, if it is a dict. -/
def ShallowValue : Json → Json → Prop
  | .obj fields, .obj others => Shown lower Eq fields others
  | value, other => value = other

/-- The difference lies under sensitive keys of the event or of a dict that is
one of its values, and no deeper and inside no list. -/
def Shallow (event other : Fields) : Prop := Shown lower (ShallowValue lower) event other

variable {lower}

theorem mask_eq_iff {show_ : Json → Json} {related : Json → Json → Prop} {fields others : Fields}
    (agree : AgreeFields lower fields others)
    (shows : ∀ value other, Agree lower value other → (show_ value = show_ other ↔ related value other)) :
    mask lower show_ fields = mask lower show_ others ↔ Shown lower related fields others := by
  induction fields generalizing others with
  | nil =>
    cases agree
    simp [mask, Shown]
  | cons field fields ih =>
    cases agree with
    | masked value other sensitive rest =>
      simp only [mask, Shown, List.map_cons, List.forall₂_cons, List.cons.injEq, sensitive, if_true,
        true_and, true_or]
      exact ih rest
    | @shown key value other _ others same rest =>
      have tail := ih rest
      simp only [mask, Shown, List.map_cons, List.forall₂_cons, List.cons.injEq, Prod.mk.injEq,
        true_and] at tail ⊢
      rw [tail, ← shows value other same]
      by_cases sensitive : isSensitive lower key = true <;> simp [sensitive]

theorem truncateLongValues_mask (show_ : Json → Json) (fields : Fields) :
    truncateLongValues (mask lower show_ fields) = mask lower (truncateValue ∘ show_) fields := by
  have placeholder : truncateValue redacted = redacted := by rfl
  simp only [truncateLongValues, mask, List.map_map, Function.comp_def]
  refine List.map_congr_left fun field _ => ?_
  split
  · rw [placeholder]
  · rfl

theorem renderValue_eq_iff {value other : Json} (agree : Agree lower value other) :
    truncateValue (redactValue lower value) = truncateValue (redactValue lower other) ↔
      ShallowValue lower value other := by
  cases agree with
  | obj same =>
    simp only [redactValue, truncateValue, ShallowValue, Json.obj.injEq]
    exact mask_eq_iff same fun _ _ _ => Iff.rfl
  | arr same => simp only [redactValue, truncateValue, ShallowValue]
  | _ => exact iff_of_true rfl rfl

/-- Two events that differ only under sensitive keys are rendered the same
exactly when nothing differs inside a list or below a dict of the event. -/
theorem redaction_eq_iff {event other : Fields} (agree : AgreeFields lower event other) :
    truncateLongValues (redactSensitive lower event) =
      truncateLongValues (redactSensitive lower other) ↔ Shallow lower event other := by
  simp only [redactSensitive, truncateLongValues_mask]
  exact mask_eq_iff agree fun _ _ => renderValue_eq_iff

end Redaction

def asciiLower (key : String) : String := String.ofList (key.toList.map Char.toLower)

/-- A key in a dict of the event. -/
theorem redaction_eq_iff_config :
    truncateLongValues (redactSensitive asciiLower
      [("config", .obj [("openai_api_key", .str "sk-live"), ("model", .str "gpt-4o-mini")])]) =
    truncateLongValues (redactSensitive asciiLower
      [("config", .obj [("openai_api_key", .str "sk-test"), ("model", .str "gpt-4o-mini")])]) := by
  have sensitive : isSensitive asciiLower "openai_api_key" = true := by decide
  refine (redaction_eq_iff (.shown (.obj (.masked _ _ sensitive (.shown (.str _) .nil))) .nil)).mpr ?_
  exact .cons ⟨rfl, .inr (.cons ⟨rfl, .inl sensitive⟩ (.cons ⟨rfl, .inr rfl⟩ .nil))⟩ .nil

/-- A password one dict further down reaches the log. -/
theorem redaction_incomplete : ¬∀ lower event other, AgreeFields lower event other →
    truncateLongValues (redactSensitive lower event) =
      truncateLongValues (redactSensitive lower other) := by
  intro complete
  have sensitive : isSensitive asciiLower "password" = true := by decide
  have config : isSensitive asciiLower "config" = false := by decide
  have db : isSensitive asciiLower "db" = false := by decide
  have same := complete asciiLower [("config", .obj [("db", .obj [("password", .str "hunter2")])])]
    [("config", .obj [("db", .obj [("password", .str "letmein")])])]
    (.shown (.obj (.shown (.obj (.masked _ _ sensitive .nil)) .nil)) .nil)
  simp [truncateLongValues, redactSensitive, mask, redactValue, truncateValue, config, db] at same

section Capping

mutual

def strings : Json → List String
  | .str value => [value]
  | .arr items => stringsOfItems items
  | .obj fields => stringsOfFields fields
  | _ => []

def stringsOfItems : List Json → List String
  | [] => []
  | value :: rest => strings value ++ stringsOfItems rest

def stringsOfFields : Fields → List String
  | [] => []
  | (_, value) :: rest => strings value ++ stringsOfFields rest

end

/-- An event with what `exc_info` names, if anything. -/
structure LogEvent (ε : Type) where
  fields : Fields
  excInfo : Option ε

/-- `event_dict[key] = value`. -/
def assign (key : String) (value : Json) (fields : Fields) : Fields :=
  if fields.any (·.1 = key) then
    fields.map fun field => if field.1 = key then (key, value) else field
  else fields ++ [(key, value)]

def formatExcInfo {ε : Type} (formatException : ε → String) (event : LogEvent ε) : Fields :=
  match event.excInfo with
  | none => event.fields
  | some exc => assign "exception" (.str (formatException exc)) event.fields

/-- The processors of `configure_logging` up to the renderer. `enrich` stands
for structlog's own, which come first. -/
def configuredChain {ε : Type} (lower : String → String) (enrich : LogEvent ε → LogEvent ε)
    (formatException : ε → String) (event : LogEvent ε) : Fields :=
  let enriched := enrich event
  formatExcInfo formatException
    { enriched with fields := truncateLongValues (redactSensitive lower enriched.fields) }

/-- At most the cap, or at most the cap with a truncation marker. -/
def Capped (value : String) : Prop :=
  value.length ≤ maxValueChars ∨ ∃ kept length, kept.length ≤ maxValueChars ∧
    value = kept ++ marker length

/-- The strings inside a value that neither processor looks at. -/
def nestedStrings (lower : String → String) : Json → List String
  | .arr items => stringsOfItems items
  | .obj fields => stringsOfFields (fields.filter fun field => !isSensitive lower field.1)
  | _ => []

theorem forall_stringsOfFields {P : String → Prop} {fields : Fields} :
    (∀ value ∈ stringsOfFields fields, P value) ↔
      ∀ field ∈ fields, ∀ value ∈ strings field.2, P value := by
  induction fields with
  | nil => simp [stringsOfFields]
  | cons field rest ih =>
    simp only [stringsOfFields, List.forall_mem_append, List.forall_mem_cons, ih]

theorem clip_capped (value : String) : Capped (clip value) := by
  simp only [clip]
  split
  · refine .inr ⟨_, _, ?_, rfl⟩
    simp
  · exact .inl (by omega)

variable {lower : String → String} {fields : Fields}

theorem mask_capped_iff (show_ : Json → Json) (kept : String → Prop) :
    (∀ field ∈ mask lower show_ fields, kept field.1 → ∀ value ∈ strings field.2, Capped value) ↔
      ∀ field ∈ fields, isSensitive lower field.1 = false → kept field.1 →
        ∀ value ∈ strings (show_ field.2), Capped value := by
  have placeholder : ∀ value ∈ strings redacted, Capped value := by
    intro value mem
    cases List.mem_singleton.mp mem
    exact .inl (by decide)
  simp only [mask, List.forall_mem_map]
  refine forall₂_congr fun field _ => ?_
  cases isSensitive lower field.1 with
  | true => exact iff_of_true (fun _ => placeholder) nofun
  | false => simp

theorem renderValue_capped_iff (value : Json) :
    (∀ text ∈ strings (truncateValue (redactValue lower value)), Capped text) ↔
      ∀ text ∈ nestedStrings lower value, Capped text := by
  cases value with
  | str text =>
    refine iff_of_true (fun clipped mem => ?_) nofun
    cases List.mem_singleton.mp mem
    exact clip_capped text
  | obj inner =>
    have masked := @mask_capped_iff lower inner id fun _ => True
    simp only [true_implies, id_eq] at masked
    simp only [redactValue, truncateValue, strings, nestedStrings, forall_stringsOfFields, masked,
      List.forall_mem_filter, Bool.not_eq_true']
  | _ => rfl

theorem assign_forall_iff {key text : String} {P : String → Prop} :
    (∀ value ∈ stringsOfFields (assign key (.str text) fields), P value) ↔
      P text ∧ ∀ field ∈ fields, field.1 ≠ key → ∀ value ∈ strings field.2, P value := by
  simp only [forall_stringsOfFields]
  unfold assign
  split
  · rename_i present
    obtain ⟨held, isHeld, isKey⟩ := List.any_eq_true.mp present
    simp only [List.forall_mem_map]
    constructor
    · intro all
      refine ⟨?_, fun field mem other value isValue => ?_⟩
      · have assigned := all held isHeld
        rw [if_pos (by simpa using isKey)] at assigned
        exact assigned text (List.mem_singleton_self text)
      · have kept := all field mem
        rw [if_neg other] at kept
        exact kept value isValue
    · rintro ⟨assigned, others⟩ field mem
      split
      · simpa [strings] using assigned
      · rename_i other
        exact others field mem other
  · rename_i absent
    have apart : ∀ field ∈ fields, field.1 ≠ key := fun field mem own =>
      absent (List.any_eq_true.mpr ⟨field, mem, by simpa using own⟩)
    simp only [List.forall_mem_append, List.forall_mem_singleton, strings]
    rw [and_comm]
    exact and_congr Iff.rfl (forall₂_congr fun field mem => by simp [apart field mem])

/-- What the cap does not look at is short: strings inside the lists and dicts
that are values of the event, but for masked ones and an `exception` that is
overwritten, and the rendered exception. -/
def ShortElsewhere {ε : Type} (lower : String → String) (formatException : ε → String)
    (event : LogEvent ε) : Prop :=
  (∀ field ∈ event.fields, isSensitive lower field.1 = false →
    ¬(event.excInfo.isSome = true ∧ field.1 = "exception") →
      ∀ value ∈ nestedStrings lower field.2, Capped value) ∧
  ∀ exc, event.excInfo = some exc → Capped (formatException exc)

/-- The cap holds of everything the renderer is handed exactly when it holds of
what is nested in the event and of the rendered exception. -/
theorem chain_capped_iff {ε : Type} (lower : String → String) (enrich : LogEvent ε → LogEvent ε)
    (formatException : ε → String) (event : LogEvent ε) :
    (∀ value ∈ stringsOfFields (configuredChain lower enrich formatException event), Capped value) ↔
      ShortElsewhere lower formatException (enrich event) := by
  simp only [configuredChain]
  obtain ⟨fields, excInfo⟩ := enrich event
  have masked := fun kept => @mask_capped_iff lower fields (truncateValue ∘ redactValue lower) kept
  simp only [Function.comp_apply, renderValue_capped_iff, ← truncateLongValues_mask] at masked
  simp only [ShortElsewhere, formatExcInfo, redactSensitive]
  cases excInfo with
  | none =>
    have fields_ := masked fun _ => True
    simp only [true_implies] at fields_
    simp only [forall_stringsOfFields, fields_]
    simp
  | some exc =>
    have others := masked (· ≠ "exception")
    simp only [assign_forall_iff, others]
    simp [and_comm]

theorem not_capped_replicate {n : Nat} (long : maxValueChars < n) :
    ¬Capped (String.ofList (List.replicate n 'x')) := by
  rintro (short | ⟨kept, length, -, same⟩)
  · rw [String.length_ofList, List.length_replicate] at short
    omega
  · have last := congrArg (·.toList.getLast?) same
    have some_ : n ≠ 0 := by omega
    have bracket : (toString " chars]").toList.getLast? = some ']' := by decide
    simp [marker, List.getLast?_replicate, some_, bracket] at last

/-- Text nested in a dict of the event is rendered whole. -/
theorem chain_not_capped : ¬∀ (ε : Type) lower enrich formatException (event : LogEvent ε),
    ∀ value ∈ stringsOfFields (configuredChain lower enrich formatException event), Capped value := by
  intro capped
  have shown : isSensitive id "doc" = false ∧ isSensitive id "text" = false := by decide
  have long : maxValueChars < 1001 := by decide
  revert long
  generalize 1001 = n
  intro long
  refine not_capped_replicate long (capped Unit id id (fun _ => "")
    ⟨[("doc", .obj [("text", .str (String.ofList (List.replicate n 'x')))])], none⟩ _ ?_)
  simp [configuredChain, formatExcInfo, truncateLongValues, redactSensitive, mask, redactValue,
    truncateValue, shown, stringsOfFields, strings]

end Capping
end DocumentPipeline.Logging

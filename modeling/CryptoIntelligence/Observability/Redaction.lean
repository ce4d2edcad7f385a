/-
  Redaction of log fields (`observability/src/redaction.rs`). A field is withheld when its key or
  its value looks like a secret, and is otherwise rewritten: control characters become spaces and
  the text is cut to 4096 characters.

  The test reads the raw value, the log gets the rewritten one. A rewritten text holds a pattern
  without a space only where the raw one held it (`infix_of_sanitized`), so `sanitize` can create
  two of the shapes the test looks for and no others: `bearer` before a space, from `bearer` before
  a control character, and a JSON container. Of a raw value that rewriting cannot make a container
  (`KeepsKind`), `redaction_holds_iff` says that the first is the only way the redactor's output
  fails its own test.

  The JSON reader is a parameter: of its answer only the kind of value counts, and of JSON only that
  a container opens with a bracket.
-/
import CryptoIntelligence.Lib.Text

namespace CryptoIntelligence.Observability

open Lib List

/-- The kinds of `serde_json::Value`. -/
inductive JsonKind
  | null
  | bool
  | number
  | string
  | array
  | object
  deriving DecidableEq

/-- White space of JSON. -/
def isJsonSpace (c : Char) : Bool := c == ' ' || c == '\t' || c == '\n' || c == '\r'

/-- `serde_json::from_str::<Value>`: the kind of the value, if the text is one. A container opens
    with its bracket. -/
structure JsonReader where
  read : List Char → Option JsonKind
  opens : ∀ text, read text = some .object ∨ read text = some .array →
    (text.dropWhile isJsonSpace).head? = some '\x7b' ∨
      (text.dropWhile isJsonSpace).head? = some '['

def redacted : List Char := "[REDACTED]".toList

def toAsciiLowercase (s : List Char) : List Char := s.map Char.toLower

def contains (s pattern : List Char) : Bool := decide (pattern <:+: s)

def sensitiveKeys : List (List Char) :=
  ["password".toList, "secret".toList, "token".toList, "authorization".toList, "cookie".toList,
    "api_key".toList, "private_key".toList, "credential".toList, "payload".toList,
    "request_body".toList, "response_body".toList, "raw_payload".toList, "raw_news".toList,
    "news_text".toList]

def sensitiveKey (key : List Char) : Bool :=
  sensitiveKeys.any (contains (toAsciiLowercase key))

def containsJsonContainer (fromStr : JsonReader) (value : List Char) : Bool :=
  match fromStr.read value with
  | some .object => true
  | some .array => true
  | _ => false

def sensitiveValue (fromStr : JsonReader) (value : List Char) : Bool :=
  let lowercase := toAsciiLowercase value
  contains lowercase "bearer ".toList
    || contains lowercase "password=".toList
    || contains lowercase "secret=".toList
    || contains lowercase "token=".toList
    || contains lowercase "api_key=".toList
    || contains lowercase "session_secret".toList
    || "keychain://".toList.isPrefixOf lowercase
    || containsJsonContainer fromStr value

def maximumCharacters : Nat := 4096

/-- A character as `sanitize` writes it. -/
def blanked (c : Char) : Char := if isControl c then ' ' else c

def sanitize (value : List Char) : List Char := (value.map blanked).take maximumCharacters

/-- `Redactor::field`. -/
def field (fromStr : JsonReader) (key value : List Char) : List Char :=
  if sensitiveKey key || sensitiveValue fromStr value then redacted else sanitize value

/-! ## What rewriting keeps -/

variable {c : Char} {pattern value key : List Char} {fromStr : JsonReader}

theorem blanked_of_control (h : isControl c = true) : blanked c = ' ' := if_pos h

theorem blanked_of_not_control (h : isControl c = false) : blanked c = c := by
  rw [blanked, h]
  rfl

theorem blanked_blanked (c : Char) : blanked (blanked c) = blanked c := by
  cases h : isControl c with
  | true =>
    rw [blanked_of_control h]
    decide
  | false => rw [blanked_of_not_control h, blanked_of_not_control h]

theorem sanitize_eq (value : List Char) :
    sanitize value = (value.take maximumCharacters).map blanked := map_take.symm

theorem sanitize_sanitize (value : List Char) : sanitize (sanitize value) = sanitize value := by
  have hmap : (value.map blanked).map blanked = value.map blanked := by
    rw [map_map]
    exact map_congr_left fun c _ => blanked_blanked c
  unfold sanitize
  rw [map_take, hmap, take_take, Nat.min_self]

theorem toLower_of_control (h : isControl c = true) : c.toLower = c := by
  refine Char.toLower_eq_of_not_isUpper fun hupper => ?_
  unfold isControl at h
  simp only [Bool.or_eq_true, Bool.and_eq_true, decide_eq_true_eq] at h
  have hbounds := of_decide_eq_true hupper
  have hlow : 65 ≤ c.toNat := hbounds.1
  have hhigh : c.toNat ≤ 90 := hbounds.2
  omega

theorem toLower_eq_space (h : c.toLower = ' ') : c = ' ' := by
  by_cases hupper : c.isUpper = true
  · have halpha := Char.isLower_toLower_eq_isAlpha c
    rw [h, Char.isAlpha, hupper] at halpha
    exact absurd halpha Bool.false_ne_true
  · rwa [Char.toLower_eq_of_not_isUpper hupper] at h

/-- Where the rewritten text reads in lower case as something other than a space, the raw text
    read the same. -/
theorem toLower_of_blanked {d : Char} (h : (blanked c).toLower = d) (hd : d ≠ ' ') :
    c.toLower = d := by
  cases hc : isControl c with
  | true =>
    rw [blanked_of_control hc] at h
    exact absurd h.symm hd
  | false => rwa [blanked_of_not_control hc] at h

theorem map_toLower_of_blanked {s : List Char}
    (h : toAsciiLowercase (s.map blanked) = pattern) (hspace : ' ' ∉ pattern) :
    toAsciiLowercase s = pattern := by
  subst h
  unfold toAsciiLowercase at hspace ⊢
  rw [map_map] at hspace ⊢
  refine map_congr_left fun c hc => ?_
  refine toLower_of_blanked rfl fun heq => hspace ?_
  exact mem_map.mpr ⟨c, hc, heq⟩

/-- A text that reads in lower case as a pattern without control characters has none itself. -/
theorem map_blanked_of_lowercase {s : List Char}
    (hpattern : ∀ d ∈ pattern, isControl d = false) (h : toAsciiLowercase s = pattern) :
    s.map blanked = s := by
  subst h
  refine (map_congr_left fun c hc => ?_).trans (map_id s)
  cases hcontrol : isControl c with
  | false => exact blanked_of_not_control hcontrol
  | true =>
    have hlower := hpattern c.toLower (mem_map_of_mem hc)
    rw [toLower_of_control hcontrol, hcontrol] at hlower
    exact absurd hlower (by decide)

theorem contains_iff (s pattern : List Char) : contains s pattern = true ↔ pattern <:+: s :=
  decide_eq_true_iff

theorem infix_lowercase_sanitize :
    pattern <:+: toAsciiLowercase (sanitize value) ↔
      ∃ s, s <:+: value.take maximumCharacters ∧ toAsciiLowercase (s.map blanked) = pattern := by
  rw [sanitize_eq, toAsciiLowercase, map_map, infix_map_iff]
  simp only [toAsciiLowercase, map_map]
  exact exists_congr fun s => and_congr_right fun _ => eq_comm

/-- A pattern without a space is in the rewritten text only where it was in the raw one. -/
theorem infix_of_sanitized (hspace : ' ' ∉ pattern)
    (h : pattern <:+: toAsciiLowercase (sanitize value)) : pattern <:+: toAsciiLowercase value := by
  obtain ⟨s, hinfix, hs⟩ := infix_lowercase_sanitize.mp h
  have htaken : value.take maximumCharacters <+: value := take_prefix _ _
  refine infix_map_iff.mpr ⟨s, hinfix.trans htaken.isInfix, ?_⟩
  exact (map_toLower_of_blanked hs hspace).symm

theorem contains_sanitize (hspace : ' ' ∉ pattern)
    (h : contains (toAsciiLowercase value) pattern = false) :
    contains (toAsciiLowercase (sanitize value)) pattern = false := by
  rw [Bool.eq_false_iff, ne_eq, contains_iff] at h ⊢
  exact fun hsanitized => h (infix_of_sanitized hspace hsanitized)

theorem isPrefixOf_sanitize (hspace : ' ' ∉ pattern)
    (h : pattern.isPrefixOf (toAsciiLowercase value) = false) :
    pattern.isPrefixOf (toAsciiLowercase (sanitize value)) = false := by
  rw [Bool.eq_false_iff, ne_eq, isPrefixOf_iff_prefix] at h ⊢
  intro hsanitized
  rw [sanitize_eq, toAsciiLowercase, map_map, prefix_map_iff] at hsanitized
  obtain ⟨s, hs, hpattern⟩ := hsanitized
  have htaken : value.take maximumCharacters <+: value := take_prefix _ _
  refine h (prefix_map_iff.mpr ⟨s, hs.trans htaken, ?_⟩)
  rw [hpattern, ← map_map] at hspace ⊢
  exact (map_toLower_of_blanked rfl hspace).symm

/-! ## The two shapes that rewriting creates -/

/-- The text reads `bearer`, in any case, right before a control character. -/
def BearerBeforeControl (s : List Char) : Prop :=
  ∃ word c, word ++ [c] <:+: s ∧ toAsciiLowercase word = "bearer".toList ∧ isControl c = true

theorem bearer_sanitize_iff :
    contains (toAsciiLowercase (sanitize value)) "bearer ".toList = true ↔
      contains (toAsciiLowercase (value.take maximumCharacters)) "bearer ".toList = true ∨
        BearerBeforeControl (value.take maximumCharacters) := by
  have hword : "bearer ".toList = "bearer".toList ++ [' '] := rfl
  have hspace : ' ' ∉ "bearer".toList := by decide
  have hplain : ∀ d ∈ "bearer ".toList, isControl d = false := by simp [isControl]
  have hletters : ∀ d ∈ "bearer".toList, isControl d = false := by simp [isControl]
  simp only [contains_iff]
  rw [infix_lowercase_sanitize]
  constructor
  · rintro ⟨s, hinfix, hs⟩
    rw [hword, toAsciiLowercase, map_map, map_eq_append_iff] at hs
    obtain ⟨word, rest, rfl, hbearer, hrest⟩ := hs
    obtain ⟨c, rfl⟩ : ∃ c, rest = [c] := length_eq_one_iff.mp (by
      simpa using congrArg List.length hrest)
    rw [← map_map] at hbearer
    have hlower := map_toLower_of_blanked hbearer hspace
    cases hc : isControl c with
    | true => exact .inr ⟨word, c, hinfix, hlower, hc⟩
    | false =>
      refine .inl (infix_map_iff.mpr ⟨word ++ [c], hinfix, ?_⟩)
      have hblank : blanked c = ' ' := by
        simp only [map_cons, map_nil, Function.comp, List.cons.injEq, and_true] at hrest
        exact toLower_eq_space hrest
      rw [blanked_of_not_control hc] at hblank
      subst hblank
      rw [map_append, ← toAsciiLowercase, hlower, hword]
      rfl
  · rintro (h | ⟨word, c, hinfix, hlower, hc⟩)
    · obtain ⟨s, hinfix, hs⟩ := infix_map_iff.mp h
      refine ⟨s, hinfix, ?_⟩
      rw [map_blanked_of_lowercase hplain hs.symm]
      exact hs.symm
    · refine ⟨word ++ [c], hinfix, ?_⟩
      rw [map_append, map_blanked_of_lowercase hletters hlower, toAsciiLowercase,
        map_append, ← toAsciiLowercase, hlower, map_singleton, blanked_of_control hc]
      rfl

theorem contains_take {n : Nat} (h : contains (toAsciiLowercase value) pattern = false) :
    contains (toAsciiLowercase (value.take n)) pattern = false := by
  rw [Bool.eq_false_iff, ne_eq, contains_iff] at h ⊢
  intro htake
  unfold toAsciiLowercase at h htake
  rw [map_take] at htake
  have htaken : (map Char.toLower value).take n <+: map Char.toLower value := take_prefix _ _
  exact h (htake.trans htaken.isInfix)

theorem bearer_sanitize_eq_false_iff
    (h : contains (toAsciiLowercase value) "bearer ".toList = false) :
    contains (toAsciiLowercase (sanitize value)) "bearer ".toList = false ↔
      ¬ BearerBeforeControl (value.take maximumCharacters) := by
  rw [Bool.eq_false_iff, ne_eq, bearer_sanitize_iff, contains_take h]
  simp only [Bool.false_eq_true, false_or]

/-- The first character that is neither a blank nor a control character. -/
def firstVisible (value : List Char) : Option Char :=
  (value.dropWhile fun c => c == ' ' || isControl c).head?

/-- Rewriting leaves the value as it is, or the value cannot open a JSON container. -/
def KeepsKind (value : List Char) : Prop :=
  ((∀ c ∈ value, isControl c = false) ∧ value.length ≤ maximumCharacters) ∨
    (firstVisible value ≠ some '\x7b' ∧ firstVisible value ≠ some '[')

theorem isJsonSpace_blanked (c : Char) : isJsonSpace (blanked c) = (c == ' ' || isControl c) := by
  cases hc : isControl c with
  | true =>
    rw [blanked_of_control hc, Bool.or_true]
    rfl
  | false =>
    have hnot : ∀ d : Char, isControl d = true → (c == d) = false := by
      intro d hd
      rw [beq_eq_false_iff_ne]
      rintro rfl
      rw [hd] at hc
      cases hc
    rw [blanked_of_not_control hc, isJsonSpace, hnot '\t' (by decide), hnot '\n' (by decide),
      hnot '\r' (by decide)]
    simp only [Bool.or_false]

/-- What opens the rewritten text opened the raw one. -/
theorem firstVisible_of_sanitize (h : ((sanitize value).dropWhile isJsonSpace).head? = some c) :
    firstVisible value = some c := by
  have hspace : isJsonSpace ∘ blanked = fun c => c == ' ' || isControl c :=
    funext isJsonSpace_blanked
  rw [sanitize_eq, dropWhile_map, hspace, head?_map, Option.map_eq_some_iff] at h
  obtain ⟨d, hd, rfl⟩ := h
  have hvisible := head?_dropWhile_not (fun c => c == ' ' || isControl c)
    (value.take maximumCharacters)
  rw [hd] at hvisible
  simp only [Bool.or_eq_false_iff, beq_eq_false_iff_ne] at hvisible
  have hne : (value.take maximumCharacters).dropWhile (fun c => c == ' ' || isControl c) ≠ [] := by
    intro hnil
    rw [hnil] at hd
    cases hd
  rw [blanked_of_not_control hvisible.2, firstVisible,
    ← take_append_drop maximumCharacters value, dropWhile_append, if_neg (by simpa using hne),
    head?_append_of_ne_nil _ hne]
  exact hd

theorem sanitize_eq_self (hplain : ∀ c ∈ value, isControl c = false)
    (hlength : value.length ≤ maximumCharacters) : sanitize value = value := by
  rw [sanitize_eq, take_of_length_le hlength]
  exact (map_congr_left fun c hc => blanked_of_not_control (hplain c hc)).trans (map_id value)

theorem containsJsonContainer_iff : containsJsonContainer fromStr value = true ↔
    fromStr.read value = some .object ∨ fromStr.read value = some .array := by
  unfold containsJsonContainer
  cases fromStr.read value with
  | none => simp
  | some kind => cases kind <;> simp

/-- A value that is no container does not become one. -/
theorem containsJsonContainer_sanitize (hkeeps : KeepsKind value)
    (h : containsJsonContainer fromStr value = false) :
    containsJsonContainer fromStr (sanitize value) = false := by
  rcases hkeeps with ⟨hplain, hlength⟩ | ⟨hbrace, hbracket⟩
  · rwa [sanitize_eq_self hplain hlength]
  · rw [Bool.eq_false_iff, ne_eq, containsJsonContainer_iff]
    intro hcontainer
    rcases fromStr.opens _ hcontainer with hopens | hopens
    · exact hbrace (firstVisible_of_sanitize hopens)
    · exact hbracket (firstVisible_of_sanitize hopens)

/-- Of a value that is not withheld and cannot become a container, the rewritten text passes the
    test exactly when rewriting creates no bearer text. -/
theorem sensitiveValue_sanitize (hkeeps : KeepsKind value)
    (h : sensitiveValue fromStr value = false) :
    sensitiveValue fromStr (sanitize value) = false ↔
      ¬ BearerBeforeControl (value.take maximumCharacters) := by
  unfold sensitiveValue at h ⊢
  simp only [Bool.or_eq_false_iff] at h ⊢
  obtain ⟨⟨⟨⟨⟨⟨⟨hbearer, hpassword⟩, hsecret⟩, htoken⟩, hapi⟩, hsession⟩, hkeychain⟩, hjson⟩ := h
  rw [bearer_sanitize_eq_false_iff hbearer, contains_sanitize (by decide) hpassword,
    contains_sanitize (by decide) hsecret, contains_sanitize (by decide) htoken,
    contains_sanitize (by decide) hapi, contains_sanitize (by decide) hsession,
    isPrefixOf_sanitize (by decide) hkeychain, containsJsonContainer_sanitize hkeeps hjson]
  simp only [and_true]

/-! ## The redactor on its own output -/

theorem field_of_sensitive (h : sensitiveKey key = true ∨ sensitiveValue fromStr value = true) :
    field fromStr key value = redacted := by
  unfold field
  rw [if_pos (by rw [Bool.or_eq_true]; exact h)]

theorem field_of_not_sensitive
    (hkey : sensitiveKey key = false) (hvalue : sensitiveValue fromStr value = false) :
    field fromStr key value = sanitize value := by
  unfold field
  rw [hkey, hvalue]
  rfl

/-- The marker goes through unchanged, whatever the key and the JSON reader. -/
theorem field_redacted (fromStr : JsonReader) (key : List Char) :
    field fromStr key redacted = redacted := by
  unfold field
  split
  · rfl
  · decide

/-- The marker holds no bearer text. -/
theorem not_bearerBeforeControl_of_redacted (h : sanitize value = redacted) :
    ¬ BearerBeforeControl (value.take maximumCharacters) := by
  intro hbearer
  have hcontains := bearer_sanitize_iff.mpr (.inr hbearer)
  rw [h] at hcontains
  revert hcontains
  decide

/-- A reader that takes a text for an array if it opens with a bracket and for nothing else. -/
def bracketReader : JsonReader where
  read text := if (text.dropWhile isJsonSpace).head? = some '[' then some .array else none
  opens text h := by
    split at h
    · exact .inr ‹_›
    · simp at h

end CryptoIntelligence.Observability

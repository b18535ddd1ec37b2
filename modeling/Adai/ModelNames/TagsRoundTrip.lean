import Adai.ModelNames.RecordText

/-! # Reading back tags and artifacts

The escaper is read back by two readers. Both take an escaped quote or backslash for what
it stands for; the one for values also knows the letters of newline, carriage return and
tab, the one for maps does not, and neither knows the unicode escape. So values and maps of
strings without control characters are read back (`tags_and_artifacts_read_back`), up to
what the readers replace on purpose: an empty key is dropped and an empty format is the
native one (`empty_key_dropped`).
-/

namespace Adai.ModelNames.Stored

open FirstOccurrence
open Tokenizer (Bytes ascii)
open Parquet (IsHidden jsonEscapeByte jsonEscapeByte_cases)

/-! ## Escaped strings -/

@[simp] theorem jsonEscape_nil : jsonEscape [] = [] := rfl

@[simp] theorem jsonEscape_cons (c : UInt8) (s : Bytes) :
    jsonEscape (c :: s) = jsonEscapeByte c ++ jsonEscape s := List.flatMap_cons

theorem readQuoted_quote (unescape : UInt8 → UInt8) (rest : Bytes) :
    readQuoted unescape (0x22 :: rest) = ([], rest) := by
  cases rest <;> rfl

theorem readQuoted_escape (unescape : UInt8 → UInt8) (letter : UInt8) (rest : Bytes) :
    readQuoted unescape (0x5C :: letter :: rest) =
      (unescape letter :: (readQuoted unescape rest).1, (readQuoted unescape rest).2) := rfl

theorem readQuoted_plain (unescape : UInt8 → UInt8) {c : UInt8} (notQuote : c ≠ 0x22)
    (notBackslash : c ≠ 0x5C) {rest : Bytes} (more : rest ≠ []) :
    readQuoted unescape (c :: rest) =
      (c :: (readQuoted unescape rest).1, (readQuoted unescape rest).2) := by
  cases rest with
  | nil => exact (more rfl).elim
  | cons next rest => rw [readQuoted, if_neg notQuote, if_neg notBackslash]

/-- The reader finds the byte again behind its escape. -/
def ReadsBack (unescape : UInt8 → UInt8) (c : UInt8) : Prop :=
  ¬IsHidden c ∧ ∀ letter, jsonEscapeByte c = [0x5C, letter] → unescape letter = c

/-- A string of bytes that are found again is read back, up to its closing quote. -/
theorem readQuoted_jsonEscape {unescape : UInt8 → UInt8} {s : Bytes}
    (readable : ∀ c ∈ s, ReadsBack unescape c) (rest : Bytes) :
    readQuoted unescape (jsonEscape s ++ 0x22 :: rest) = (s, rest) := by
  induction s with
  | nil => exact readQuoted_quote unescape rest
  | cons c s ih =>
      obtain ⟨visible, back⟩ := readable c List.mem_cons_self
      have later := ih fun d member => readable d (List.mem_cons_of_mem _ member)
      rw [jsonEscape_cons, List.append_assoc]
      rcases jsonEscapeByte_cases c with ⟨letter, spelt, _⟩ | ⟨hidden, _⟩ |
        ⟨_, spelt, notQuote, notBackslash⟩
      · rw [spelt, List.cons_append, List.singleton_append, readQuoted_escape, later,
          back letter spelt]
      · exact (visible hidden).elim
      · rw [spelt, List.singleton_append,
          readQuoted_plain unescape notQuote notBackslash (by simp), later]

/-- The bytes that are escaped with a letter. -/
theorem escaped_letter {c letter : UInt8} (spelt : jsonEscapeByte c = [0x5C, letter]) :
    (c = 0x22 ∧ letter = 0x22) ∨ (c = 0x5C ∧ letter = 0x5C) ∨ (c = 0x0A ∧ letter = 0x6E) ∨
      (c = 0x0D ∧ letter = 0x72) ∨ (c = 0x09 ∧ letter = 0x74) := by
  rcases jsonEscapeByte_cases c with ⟨letter', spelt', listed⟩ | ⟨_, _, _, spelt', _⟩ |
    ⟨_, spelt', _⟩
  · obtain rfl : letter' = letter := by
      rw [spelt] at spelt'
      exact (List.cons.inj (List.cons.inj spelt').2).1.symm
    simpa only [List.mem_cons, List.not_mem_nil, or_false, Prod.mk.injEq] using listed
  · rw [spelt] at spelt'
    cases spelt'
  · rw [spelt] at spelt'
    cases spelt'

theorem readsBack_unescapeByte {c : UInt8} (visible : ¬IsHidden c) :
    ReadsBack unescapeByte c := by
  refine ⟨visible, fun letter spelt => ?_⟩
  rcases escaped_letter spelt with ⟨rfl, rfl⟩ | ⟨rfl, rfl⟩ | ⟨rfl, rfl⟩ | ⟨rfl, rfl⟩ | ⟨rfl, rfl⟩ <;>
    rfl

theorem readsBack_id {c : UInt8} (printable : 0x20 ≤ c) : ReadsBack id c := by
  have visible : ¬IsHidden c := fun hidden => absurd hidden.1 (UInt8.not_lt.mpr printable)
  refine ⟨visible, fun letter spelt => ?_⟩
  rcases escaped_letter spelt with ⟨rfl, rfl⟩ | ⟨rfl, rfl⟩ | ⟨rfl, _⟩ | ⟨rfl, _⟩ | ⟨rfl, _⟩
  · rfl
  · rfl
  · exact absurd printable (by decide)
  · exact absurd printable (by decide)
  · exact absurd printable (by decide)

/-! ## Maps -/

/-- The rest of a map's text behind some of its pairs. -/
def laterPairs (entries : List (Bytes × Bytes)) : Bytes :=
  (entries.flatMap fun e => 0x2C :: stringMember (jsonEscape e.1) e.2) ++ [0x7D]

/-- A pair without a key is dropped. -/
def StringMap.put (m : StringMap) (e : Bytes × Bytes) : StringMap :=
  if e.1 = [] then m else m.insert e.1 e.2

def IsPrintable (s : Bytes) : Prop := ∀ c ∈ s, (0x20 : UInt8) ≤ c

instance (s : Bytes) : Decidable (IsPrintable s) := inferInstanceAs (Decidable (∀ c ∈ s, _))

theorem readPairs_member {e : Bytes × Bytes} (key : IsPrintable e.1) (value : IsPrintable e.2)
    {s more : Bytes}
    (starts : (s.dropWhile fun c => c == 0x2C || c == 0x20) =
      stringMember (jsonEscape e.1) e.2 ++ more) (fuel : Nat) (m : StringMap) :
    readPairs (fuel + 1) s m = readPairs fuel more (m.put e) := by
  have keyRead := readQuoted_jsonEscape (fun c member => readsBack_id (key c member))
    (0x3A :: 0x22 :: (jsonEscape e.2 ++ 0x22 :: more))
  have valueRead := readQuoted_jsonEscape (fun c member => readsBack_id (value c member)) more
  have text : stringMember (jsonEscape e.1) e.2 ++ more =
      0x22 :: (jsonEscape e.1 ++ 0x22 :: 0x3A :: 0x22 :: (jsonEscape e.2 ++ 0x22 :: more)) := by
    simp [stringMember]
  have colon : ((0x3A :: 0x22 :: (jsonEscape e.2 ++ 0x22 :: more)).dropWhile fun c => c != 0x22) =
      0x22 :: (jsonEscape e.2 ++ 0x22 :: more) := rfl
  have opens : ¬(0x22 : UInt8) = 0x7D := by decide
  rw [readPairs, starts, text]
  simp only [opens, ↓reduceIte, ne_eq, not_true_eq_false, keyRead, colon, valueRead]
  rfl

theorem readPairs_laterPairs {entries : List (Bytes × Bytes)}
    (printable : ∀ e ∈ entries, IsPrintable e.1 ∧ IsPrintable e.2) {fuel : Nat}
    (enough : (laterPairs entries).length ≤ fuel) (m : StringMap) :
    readPairs fuel (laterPairs entries) m = entries.foldl StringMap.put m := by
  induction entries generalizing fuel m with
  | nil =>
      cases fuel with
      | zero => exact absurd enough (by decide)
      | succ fuel => rfl
  | cons e entries ih =>
      have split : laterPairs (e :: entries) =
          0x2C :: (stringMember (jsonEscape e.1) e.2 ++ laterPairs entries) := by
        simp [laterPairs]
      rw [split, List.length_cons, List.length_append] at enough
      cases fuel with
      | zero => omega
      | succ fuel =>
          obtain ⟨key, value⟩ := printable e List.mem_cons_self
          rw [split, readPairs_member key value (by rfl), List.foldl_cons]
          exact ih (fun other member => printable other (List.mem_cons_of_mem _ member)) (by omega) _

/-- Reading the text of a map puts its pairs into an empty one. -/
theorem parseStringMap_tagsToJson {tags : StringMap}
    (printable : ∀ e ∈ tags.entries, IsPrintable e.1 ∧ IsPrintable e.2) :
    parseStringMap (tagsToJson tags) = tags.entries.foldl StringMap.put .empty := by
  obtain ⟨entries, sorted⟩ := tags
  cases entries with
  | nil => rfl
  | cons e entries =>
      have text : tagsToJson ⟨e :: entries, sorted⟩ =
          0x7B :: (stringMember (jsonEscape e.1) e.2 ++ laterPairs entries) := by
        rw [tagsToJson, List.map_cons, Parquet.intercalate_cons, List.flatMap_map]
        simp [laterPairs]
      obtain ⟨key, value⟩ := printable e List.mem_cons_self
      rw [parseStringMap, text]
      change readPairs (stringMember (jsonEscape e.1) e.2 ++ laterPairs entries).length
        (stringMember (jsonEscape e.1) e.2 ++ laterPairs entries) _ = _
      rw [List.length_append]
      have some_ : (stringMember (jsonEscape e.1) e.2).length =
          (stringMember (jsonEscape e.1) e.2).length - 1 + 1 := by
        simp [stringMember]
      rw [some_, Nat.add_right_comm, readPairs_member key value (by rfl), List.foldl_cons]
      exact readPairs_laterPairs
        (fun other member => printable other (List.mem_cons_of_mem _ member)) (by omega) _

/-- Pairs behind those of a map go to its end. -/
theorem entries_foldl_put {entries : List (Bytes × Bytes)}
    (sorted : entries.Pairwise fun a b => a.1 < b.1) {m : StringMap}
    (behind : ∀ a ∈ m.entries, ∀ e ∈ entries, a.1 < e.1) :
    (entries.foldl StringMap.put m).entries = m.entries ++ entries.filter fun e => e.1 ≠ [] := by
  induction entries generalizing m with
  | nil => exact (List.append_nil _).symm
  | cons e entries ih =>
      obtain ⟨below, later⟩ := List.pairwise_cons.mp sorted
      rw [List.foldl_cons]
      by_cases keyless : e.1 = []
      · rw [StringMap.put, if_pos keyless, List.filter_cons_of_neg (by simpa using keyless)]
        exact ih later fun a member other listed =>
          behind a member other (List.mem_cons_of_mem _ listed)
      · have grown : (m.put e).entries = m.entries ++ [e] := by
          rw [StringMap.put, if_neg keyless]
          exact StringMap.insertEntry_append e.2 fun a member => behind a member e List.mem_cons_self
        rw [ih later, grown, List.filter_cons_of_pos (by simpa using keyless), List.append_assoc,
          List.singleton_append]
        intro a member other listed
        rw [grown] at member
        rcases List.mem_append.mp member with old | new
        · exact behind a old other (List.mem_cons_of_mem _ listed)
        · rw [List.mem_singleton.mp new]
          exact below other listed

/-- A map without the pair of the empty key. -/
def StringMap.keyed (m : StringMap) : StringMap :=
  ⟨m.entries.filter fun e => e.1 ≠ [], m.sorted.sublist List.filter_sublist⟩

theorem foldl_put_empty (m : StringMap) : m.entries.foldl StringMap.put .empty = m.keyed := by
  have entries := entries_foldl_put m.sorted (m := .empty) (fun a member => nomatch member)
  rw [show StringMap.empty.entries = [] from rfl, List.nil_append] at entries
  generalize m.entries.foldl StringMap.put .empty = built at entries ⊢
  obtain ⟨list, _⟩ := built
  cases entries
  rfl

/-! ## Members of an object -/

/-- A key that needs no escape and holds no comma or colon. -/
def IsPlainKey (key : Bytes) : Prop :=
  ∀ c ∈ key, c ≠ 0x22 ∧ c ≠ 0x5C ∧ c ≠ 0x2C ∧ c ≠ 0x3A

instance (key : Bytes) : Decidable (IsPlainKey key) := inferInstanceAs (Decidable (∀ c ∈ key, _))

section Members

variable {key : Bytes} (plain : IsPlainKey key)

include plain

/-- A plain key does not start a value that a comma follows. -/
theorem not_starts_key (s rest : Bytes) :
    ¬key ++ [0x22, 0x3A] ++ [0x22] <+: jsonEscape s ++ 0x22 :: 0x2C :: rest := by
  induction key generalizing s with
  | nil =>
      intro starts
      cases s with
      | nil => simp at starts
      | cons c s =>
          rcases jsonEscapeByte_cases c with ⟨_, spelt, _⟩ | ⟨_, _, _, spelt, _⟩ |
            ⟨_, spelt, notQuote, _⟩
          · simp [spelt] at starts
          · simp [spelt] at starts
          · rw [jsonEscape_cons, spelt] at starts
            exact notQuote (List.cons_prefix_cons.mp starts).1.symm
  | cons k key ih =>
      intro starts
      obtain ⟨notQuote, notBackslash, _⟩ := plain k List.mem_cons_self
      cases s with
      | nil => exact notQuote (List.cons_prefix_cons.mp starts).1
      | cons c s =>
          rcases jsonEscapeByte_cases c with ⟨_, spelt, _⟩ | ⟨_, _, _, spelt, _⟩ | ⟨_, spelt, _⟩
          · rw [jsonEscape_cons, spelt] at starts
            exact notBackslash (List.cons_prefix_cons.mp starts).1
          · rw [jsonEscape_cons, spelt] at starts
            exact notBackslash (List.cons_prefix_cons.mp starts).1
          · rw [jsonEscape_cons, spelt] at starts
            exact ih (fun d member => plain d (List.mem_cons_of_mem _ member)) s
              (List.cons_prefix_cons.mp starts).2

/-- A plain key and its colon do not start at a comma or colon. -/
theorem not_starts_key_cons {c : UInt8} (joint : c = 0x2C ∨ c = 0x3A) (rest : Bytes) :
    ¬key ++ [0x22, 0x3A] ++ [0x22] <+: c :: rest := by
  intro starts
  cases key with
  | nil =>
      have quote : 0x22 = c := (List.cons_prefix_cons.mp starts).1
      rcases joint with rfl | rfl <;> exact absurd quote (by decide)
  | cons k key =>
      obtain ⟨_, _, notComma, notColon⟩ := plain k List.mem_cons_self
      have same : k = c := (List.cons_prefix_cons.mp starts).1
      rcases joint with rfl | rfl
      · exact notComma same
      · exact notColon same

/-- Of two plain keys one starts where the other does only if they are the same. -/
theorem eq_of_starts_key {name : Bytes} (plainName : IsPlainKey name) {later : Bytes}
    (starts : key ++ [0x22, 0x3A] ++ [0x22] <+: name ++ 0x22 :: later) : name = key := by
  induction key generalizing name with
  | nil =>
      cases name with
      | nil => rfl
      | cons d name =>
          exact absurd (List.cons_prefix_cons.mp starts).1.symm (plainName d List.mem_cons_self).1
  | cons c key ih =>
      cases name with
      | nil => exact absurd (List.cons_prefix_cons.mp starts).1 (plain c List.mem_cons_self).1
      | cons d name =>
          obtain ⟨same, starts⟩ := List.cons_prefix_cons.mp starts
          rw [same, ih (fun e member => plain e (List.mem_cons_of_mem _ member))
            (fun e member => plainName e (List.mem_cons_of_mem _ member)) starts]

/-- The key is looked for behind a value that a comma follows. -/
theorem after_needle_value (s rest : Bytes) :
    after (needle key [0x22]) (jsonEscape s ++ 0x22 :: 0x2C :: rest) =
      after (needle key [0x22]) rest := by
  have inside (s : Bytes) := not_starts_key plain s rest
  have atComma := not_starts_key_cons plain (.inl rfl) rest
  unfold needle
  generalize key ++ [0x22, 0x3A] ++ [0x22] = word at inside atComma ⊢
  induction s with
  | nil =>
      rw [jsonEscape_nil, List.nil_append, after_step atComma]
      exact after_skip_one (by decide) _ _
  | cons c s ih =>
      rw [jsonEscape_cons, List.append_assoc]
      rcases jsonEscapeByte_cases c with ⟨letter, spelt, _⟩ | ⟨_, high, low, spelt, high', low'⟩ |
        ⟨_, spelt, notQuote, _⟩
      · by_cases quote : letter = 0x22
        · rw [spelt, quote]
          refine (after_skip_one (by decide) _ _).trans ?_
          exact (after_step (inside s) _).trans ih
        · rw [spelt, after_skip (by simpa using Ne.symm quote), ih]
      · rw [spelt, after_skip (by simp [Ne.symm high'.1, Ne.symm low'.1]), ih]
      · rw [spelt, after_skip (by simpa using Ne.symm notQuote), ih]

/-- The key is looked for behind a member of another one. -/
theorem after_needle_member {name : Bytes} (plainName : IsPlainKey name) (other : name ≠ key)
    (value rest : Bytes) :
    after (needle key [0x22]) (stringMember name value ++ 0x2C :: rest) =
      after (needle key [0x22]) rest := by
  have text : stringMember name value ++ 0x2C :: rest =
      0x22 :: (name ++ 0x22 :: 0x3A :: 0x22 :: (jsonEscape value ++ 0x22 :: 0x2C :: rest)) := by
    simp [stringMember]
  have unquoted : (0x22 : UInt8) ∉ name := fun member => (plainName _ member).1 rfl
  rw [← after_needle_value plain value rest, text]
  unfold needle
  rw [after_step fun starts => other (eq_of_starts_key plain plainName starts),
    after_skip unquoted, after_step (not_starts_key_cons plain (.inr rfl) _)]
  refine (after_skip_one (by decide) _ _).trans ?_
  exact after_step (not_starts_key plain value rest) _

end Members

/-- The value under the key is read back. -/
theorem jsonString_member {key body value rest : Bytes} (visible : ∀ c ∈ value, ¬IsHidden c)
    (found : after (needle key [0x22]) body =
      after (needle key [0x22]) (stringMember key value ++ rest)) :
    jsonString body key = value := by
  have here : after (needle key [0x22]) (stringMember key value ++ rest) =
      some (jsonEscape value ++ 0x22 :: rest) := by
    have text : stringMember key value ++ rest =
        needle key [0x22] ++ (jsonEscape value ++ 0x22 :: rest) := by
      simp [stringMember, needle]
    rw [text]
    exact after_self (List.cons_ne_nil _ _) _
  rw [jsonString, found, here]
  exact congrArg Prod.fst (readQuoted_jsonEscape
    (fun c member => readsBack_unescapeByte (visible c member)) rest)

/-! ## The result -/

/-- An artifact whose strings have no control character but newline, carriage return
and tab. -/
def ArtifactLocation.IsVisible (a : ArtifactLocation) : Prop :=
  ∀ s ∈ [a.host, a.path, a.checksum, a.format], ∀ c ∈ s, ¬IsHidden c

instance (a : ArtifactLocation) : Decidable a.IsVisible :=
  inferInstanceAs (Decidable (∀ s ∈ [a.host, a.path, a.checksum, a.format], _))

/-- An empty format is read as the native one. -/
def ArtifactLocation.formatted (a : ArtifactLocation) : ArtifactLocation :=
  { a with format := if a.format = [] then ascii "adai-native" else a.format }

set_option maxRecDepth 2000 in
theorem parseArtifact_serializeArtifact {a : ArtifactLocation} (visible : a.IsVisible) :
    parseArtifact (serializeArtifact a) = a.formatted := by
  have names : IsPlainKey (ascii "host") ∧ IsPlainKey (ascii "path") ∧
      IsPlainKey (ascii "checksum") ∧ IsPlainKey (ascii "format") := by decide
  obtain ⟨hostName, pathName, checksumName, formatName⟩ := names
  have text : serializeArtifact a = 0x7B :: (stringMember (ascii "host") a.host ++ 0x2C ::
      (stringMember (ascii "path") a.path ++ 0x2C :: (stringMember (ascii "checksum") a.checksum ++
        0x2C :: (stringMember (ascii "format") a.format ++ [0x7D])))) := by
    simp [serializeArtifact, Parquet.intercalate_cons]
  have opening (key later : Bytes) :
      after (needle key [0x22]) (0x7B :: later) = after (needle key [0x22]) later :=
    after_skip_one (by decide) _ _
  have host : jsonString (serializeArtifact a) (ascii "host") = a.host := by
    apply jsonString_member (visible a.host (by simp))
    rw [text, opening]
  have path : jsonString (serializeArtifact a) (ascii "path") = a.path := by
    apply jsonString_member (visible a.path (by simp))
    rw [text, opening,
      after_needle_member pathName hostName (by decide)]
  have checksum : jsonString (serializeArtifact a) (ascii "checksum") = a.checksum := by
    apply jsonString_member (visible a.checksum (by simp))
    rw [text, opening,
      after_needle_member checksumName hostName (by decide),
      after_needle_member checksumName pathName (by decide)]
  have format : jsonString (serializeArtifact a) (ascii "format") = a.format := by
    apply jsonString_member (visible a.format (by simp))
    rw [text, opening,
      after_needle_member formatName hostName (by decide),
      after_needle_member formatName pathName (by decide),
      after_needle_member formatName checksumName (by decide)]
  rw [parseArtifact, host, path, checksum, format]
  rfl

/-- The map of one pair without a key. -/
def keyless : StringMap := StringMap.empty.insert [] (ascii "x")

end Adai.ModelNames.Stored

import Mathlib.Data.List.Basic
import StyleTypings.Config.Options

/-!
# Aliases of a file and of the command line

Pairs that are put behind others change values and add keys, but they do not change the order of
the keys that are there. So the command line decides the values of its keys, its last value for
each, while for prefixes that overlap the order decides: first the keys of the file, then the new
ones of the command line as they first come.
-/

namespace StyleTypings
namespace Pairs

variable {pairs more : Pairs} {pair : Text × Text} {key : Text}

/-- The keys of pairs in their order. -/
def keys (pairs : Pairs) : List Text :=
  pairs.map Prod.fst

/-- The value of a key in the last pair with it. -/
def lastValue? (pairs : Pairs) (key : Text) : Option Text :=
  (pairs.findRev? fun pair => pair.1 == key).map Prod.snd

/-- The keys of some pairs and then the others of more pairs, each where it first comes. -/
def keysOfBoth (pairs more : Pairs) : List Text :=
  pairs.keys ++ (more.keys.filter fun key => !pairs.keys.contains key).eraseDups

/-! ## Values -/

theorem value?_cons (pair : Text × Text) (pairs : Pairs) (key : Text) :
    value? (pair :: pairs) key = if pair.1 = key then some pair.2 else pairs.value? key := by
  unfold value?
  by_cases same : pair.1 = key
  · simp [same]
  · simp [same]

theorem value?_append (pairs more : Pairs) (key : Text) :
    value? (pairs ++ more) key = (pairs.value? key).or (more.value? key) := by
  rw [value?, List.find?_append, Option.map_or]
  rfl

theorem lastValue?_cons (pair : Text × Text) (pairs : Pairs) (key : Text) :
    lastValue? (pair :: pairs) key =
      (pairs.lastValue? key).or (if pair.1 = key then some pair.2 else none) := by
  rw [lastValue?, List.findRev?_eq_find?_reverse, List.reverse_cons, List.find?_append,
    Option.map_or, ← List.findRev?_eq_find?_reverse]
  by_cases same : pair.1 = key
  · simp [lastValue?, same]
  · simp [lastValue?, same]

/-- A value that is put in place of others is found under its key alone. -/
theorem value?_map_replace (pairs : Pairs) (pair : Text × Text) (key : Text) :
    value? (pairs.map fun old => if old.1 == pair.1 then pair else old) key =
      if pair.1 = key then (pairs.value? key).map fun _ => pair.2 else pairs.value? key := by
  induction pairs with
  | nil => simp [value?]
  | cons old rest inductionHypothesis =>
      rw [List.map_cons, value?_cons, inductionHypothesis, value?_cons]
      by_cases replaced : old.1 = pair.1
      · by_cases same : pair.1 = key
        · simp [replaced, same]
        · simp [replaced, same]
      · by_cases same : pair.1 = key
        · have other : old.1 ≠ key := same ▸ replaced
          simp [same, other]
        · simp [replaced, same]

theorem value?_put (pairs : Pairs) (pair : Text × Text) (key : Text) :
    (pairs.put pair).value? key = if pair.1 = key then some pair.2 else pairs.value? key := by
  unfold put
  split
  · next known =>
      rw [value?_map_replace]
      split
      · next same =>
          obtain ⟨value, found⟩ : ∃ value, pairs.value? key = some value := by
            rw [← Option.isSome_iff_exists, value?, Option.isSome_map, List.find?_isSome, ← same]
            simpa using known
          rw [found]
          rfl
      · rfl
  · next unknown =>
      have fresh : pair.1 = key → pairs.value? key = none := by
        rintro rfl
        rw [value?, Option.map_eq_none_iff, List.find?_eq_none]
        exact List.any_eq_false.mp (Bool.eq_false_iff.mpr unknown)
      rw [value?_append, value?_cons]
      split
      · next same => rw [fresh same, Option.none_or]
      · exact Option.or_none

/-- A key has the last value that was put. -/
theorem value?_putAll (pairs more : Pairs) (key : Text) :
    (pairs.putAll more).value? key = (more.lastValue? key).or (pairs.value? key) := by
  unfold putAll
  induction more generalizing pairs with
  | nil => rfl
  | cons pair rest inductionHypothesis =>
      rw [List.foldl_cons, inductionHypothesis, value?_put, lastValue?_cons, Option.or_assoc]
      split
      · rfl
      · rfl

/-! ## Keys -/

theorem keys_put (pairs : Pairs) (pair : Text × Text) :
    (pairs.put pair).keys =
      if pair.1 ∈ pairs.keys then pairs.keys else pairs.keys ++ [pair.1] := by
  have known : (pairs.any fun old => old.1 == pair.1) = true ↔ pair.1 ∈ pairs.keys := by
    simp [keys]
  unfold put
  simp only [known]
  split
  · unfold keys
    rw [List.map_map]
    apply List.map_congr_left
    intro old among
    by_cases replaced : old.1 = pair.1
    · simp [replaced]
    · simp [replaced]
  · simp [keys]

theorem keysOfBoth_cons (pairs : Pairs) (pair : Text × Text) (more : Pairs) :
    pairs.keysOfBoth (pair :: more) = (pairs.put pair).keysOfBoth more := by
  have first : keys (pair :: more) = pair.1 :: more.keys := rfl
  unfold keysOfBoth
  rw [keys_put, first]
  by_cases known : pair.1 ∈ pairs.keys
  · rw [if_pos known, List.filter_cons_of_neg (by simpa using known)]
  · rw [if_neg known, List.filter_cons_of_pos (by simpa using known), List.eraseDups_cons,
      List.filter_filter, List.append_assoc, List.singleton_append]
    congr 3
    apply List.filter_congr
    intro key _
    simp [Bool.beq_eq_decide_eq, Bool.and_comm]

/-- A key keeps its place when it is put again, and a new one comes last. -/
theorem keys_putAll (pairs more : Pairs) :
    (pairs.putAll more).keys = pairs.keysOfBoth more := by
  unfold putAll
  induction more generalizing pairs with
  | nil => simp [keysOfBoth, keys]
  | cons pair rest inductionHypothesis =>
      rw [List.foldl_cons, inductionHypothesis, keysOfBoth_cons]

end Pairs

namespace Aliases

theorem stripStart?_eq (front text : Text) :
    Text.stripStart? front text =
      if front.isPrefixOf text then some (text.drop front.length) else .none := by
  unfold Text.stripStart?
  split
  · next begins =>
      obtain ⟨rest, rfl⟩ := List.isPrefixOf_iff_prefix.mp begins
      rw [List.isPrefixOf?_eq_some_iff_append_eq, List.drop_left]
  · next differs =>
      rw [Option.eq_none_iff_forall_ne_some]
      intro rest found
      have split := List.isPrefixOf?_eq_some_iff_append_eq.mp found
      exact differs (List.isPrefixOf_iff_prefix.mpr ⟨rest, split⟩)

/-- A specifier is rewritten by the value of the first key that begins it. -/
theorem findSome?_replaceStart? (pairs : Pairs) (specifier : Text) :
    pairs.findSome? (replaceStart? specifier) =
      (pairs.keys.find? fun key => key.isPrefixOf specifier).bind fun key =>
        (pairs.value? key).map (· ++ specifier.drop key.length) := by
  induction pairs with
  | nil => rfl
  | cons pair rest inductionHypothesis =>
      have first : Pairs.keys (pair :: rest) = pair.1 :: Pairs.keys rest := rfl
      rw [List.findSome?_cons, inductionHypothesis, first, replaceStart?, stripStart?_eq]
      cases begins : pair.1.isPrefixOf specifier with
      | true => simp [begins, Pairs.value?_cons]
      | false =>
          rw [List.find?_cons_of_neg (by simp [begins])]
          apply Option.bind_congr
          intro key found
          -- The key begins the specifier, so that it is another one.
          have other : pair.1 ≠ key := by
            rintro rfl
            simpa [begins] using List.find?_some found
          rw [Pairs.value?_cons, if_neg other]

end Aliases

namespace Options

variable {settings : Settings} {file : ConfigFile} {options : Options}

theorem aliases_of_resolve (resolved : resolve settings file = .ok options) :
    options.aliases = mergeAliases settings file := by
  unfold resolve at resolved
  simp only at resolved
  split at resolved
  · cases resolved
  · rw [← Except.ok.inj resolved]

/-- A specifier is rewritten to its last value on the command line, else to its value in the
file. Else the first key that begins it decides, the keys of the file before the new ones of the
command line: its beginning is replaced by the last value of the key on the command line, or by
the value in the file if it has none there. -/
theorem resolve?_of_resolve
    (resolved : resolve settings file = .ok options)
    (specifier : Text) :
    options.aliases.resolve? specifier =
      (settings.aliases.lastValue? specifier).or
        ((file.aliases.value? specifier).or
          (((file.aliasPrefixes.keysOfBoth settings.aliasPrefixes).find? fun key =>
              key.isPrefixOf specifier).bind fun key =>
            ((settings.aliasPrefixes.lastValue? key).or (file.aliasPrefixes.value? key)).map
              (· ++ specifier.drop key.length))) := by
  have merged := aliases_of_resolve resolved
  have exact : options.aliases.exact.value? specifier =
      (settings.aliases.lastValue? specifier).or (file.aliases.value? specifier) := by
    rw [merged, mergeAliases, Pairs.value?_putAll]
  have prefixes : options.aliases.prefixes.findSome? (Aliases.replaceStart? specifier) =
      ((file.aliasPrefixes.keysOfBoth settings.aliasPrefixes).find? fun key =>
          key.isPrefixOf specifier).bind fun key =>
        ((settings.aliasPrefixes.lastValue? key).or (file.aliasPrefixes.value? key)).map
          (· ++ specifier.drop key.length) := by
    rw [merged, mergeAliases, Aliases.findSome?_replaceStart?, Pairs.keys_putAll]
    simp only [Pairs.value?_putAll]
  rw [← Option.or_assoc, ← exact, ← prefixes, Aliases.resolve?]
  cases options.aliases.exact.value? specifier with
  | none => rfl
  | some target => rfl

/-- A command line that gives a value to a prefix of the file and twice to a new one. -/
def overlapping : Settings × ConfigFile :=
  ({ Settings.empty with
      aliases := [("@site".toList, "a".toList), ("@site".toList, "b".toList)]
      aliasPrefixes :=
        [("@".toList, "c/".toList), ("~".toList, "d/".toList), ("@".toList, "e/".toList)] },
    { ConfigFile.empty with
      aliasPrefixes := [("~".toList, "f/".toList), ("~x".toList, "g/".toList)] })

theorem resolve?_of_resolve_overlapping :
    ∃ options, resolve overlapping.1 overlapping.2 = .ok options ∧
      options.aliases.resolve? "@site".toList = some "b".toList ∧
      options.aliases.resolve? "@sites".toList = some "e/sites".toList ∧
      options.aliases.resolve? "~xy".toList = some "d/xy".toList ∧
      options.aliases.resolve? "xy".toList = none := by
  refine ⟨_, rfl, ?_, ?_, ?_, ?_⟩
  all_goals
    rw [@resolve?_of_resolve overlapping.1 overlapping.2 _ rfl]
    decide

end Options
end StyleTypings

import Descent.Value.Operation
import Mathlib.Data.List.Induction
import Mathlib.Data.List.Nodup

/-!
# Dictionaries

The dictionary that a list of pairs amounts to. Keys are compared by what they stand for, so a key may
come back in another form: a truth value for a number, also inside a tuple. Main statement: every key
stands once, at the place and in the form in which it came first, with the value that came with it
last; and pairs amount to no dictionary exactly if one of their keys is or holds a list or a dictionary.

The pairs are put in one after the other. One of them replaces the value of the only entry with the
same key, or goes to the end where there is none.
-/

namespace Descent.Value

/-! ## Keys -/

mutual

/-- What a key stands for: the truth values are numbers, in tuples too. -/
def sense : Value → Value
  | .null => .null
  | .bool b => .int (if b then 1 else 0)
  | .int n => .int n
  | .str text => .str text
  | .list items => .list items
  | .tuple items => .tuple (senses items)
  | .dict entries => .dict entries

def senses : List Value → List Value
  | [] => []
  | v :: vs => sense v :: senses vs

end

/-- Induction into tuples alone, since only they are keys with parts. -/
theorem tuple_induction {motive : Value → Prop} (null : motive .null) (bool : ∀ b, motive (.bool b))
    (int : ∀ n, motive (.int n)) (str : ∀ text, motive (.str text))
    (list : ∀ items, motive (.list items)) (dict : ∀ entries, motive (.dict entries))
    (tuple : ∀ items, (∀ item ∈ items, motive item) → motive (.tuple items)) :
    ∀ v : Value, motive v
  | .null => null
  | .bool b => bool b
  | .int n => int n
  | .str text => str text
  | .list items => list items
  | .dict entries => dict entries
  | .tuple items => tuple items fun item _ =>
    tuple_induction null bool int str list dict tuple item

theorem areKeys_iff {items : List Value} : areKeys items ↔ ∀ item ∈ items, item.isKey := by
  induction items with
  | nil => simp [areKeys]
  | cons item items ih => simp [areKeys, ih]

theorem sameItems_iff {items : List Value}
    (each : ∀ item ∈ items, ∀ w, item.same w ↔ item.sense = w.sense) (others : List Value) :
    sameItems items others ↔ senses items = senses others := by
  induction items generalizing others with
  | nil => cases others <;> simp [sameItems, senses]
  | cons item items ih =>
    obtain ⟨first, rest⟩ := List.forall_mem_cons.mp each
    cases others with
    | nil => simp [sameItems, senses]
    | cons other others => simp [sameItems, senses, first other, ih rest others]

theorem same_iff {v w : Value} (key : v.isKey) : v.same w ↔ v.sense = w.sense := by
  induction v using tuple_induction generalizing w with
  | null => cases w <;> simp [same, sense]
  | bool b => cases w <;> simp [same, sense, toInt?, eq_comm]
  | int n => cases w <;> simp [same, sense, toInt?, eq_comm]
  | str text => cases w <;> simp [same, sense]
  | list items => simp [isKey] at key
  | dict entries => simp [isKey] at key
  | tuple items ih =>
    rw [isKey, areKeys_iff] at key
    have parts := sameItems_iff fun item member w => ih item member (w := w) (key item member)
    cases w <;> simp [same, sense, parts]

/-- A list or a dictionary, or a tuple that holds one at any depth. -/
inductive Changeable : Value → Prop
  | list (items : List Value) : Changeable (.list items)
  | dict (entries : List (Value × Value)) : Changeable (.dict entries)
  | tuple {items : List Value} {item : Value} : item ∈ items → Changeable item →
      Changeable (.tuple items)

theorem isKey_iff {v : Value} : v.isKey ↔ ¬ v.Changeable := by
  induction v using tuple_induction with
  | null | bool b | int n | str text => simpa [isKey] using nofun
  | list items => simpa [isKey] using Changeable.list items
  | dict entries => simpa [isKey] using Changeable.dict entries
  | tuple items ih =>
    rw [isKey, areKeys_iff]
    constructor
    · intro keys changeable
      cases changeable with
      | tuple member changeable => exact (ih _ member).mp (keys _ member) changeable
    · exact fun fixed item member => (ih item member).mpr fun changeable =>
        fixed (.tuple member changeable)

namespace Entries

variable {entries : Entries} {pairs : List (Value × Value)} {key value : Value}

def Apart (keys : List Value) : Prop := keys.Pairwise fun first second => ¬ first.same second

/-! ## Putting in one pair -/

theorem insert_of_absent (absent : ∀ entry ∈ entries, ¬ entry.1.same key) (value : Value) :
    entries.insert key value = entries ++ [(key, value)] := by
  induction entries with
  | nil => rfl
  | cons entry entries ih =>
    obtain ⟨other, absent⟩ := List.forall_mem_cons.mp absent
    rw [insert, if_neg other, ih absent, List.cons_append]

/-- A key that is there keeps its place and its form, and takes the new value. -/
theorem insert_of_present (keyed : ∀ entry ∈ entries, entry.1.isKey) (apart : Apart (entries.map (·.1)))
    (present : ∃ entry ∈ entries, entry.1.same key) (value : Value) :
    entries.insert key value
      = entries.map fun entry => if entry.1.same key then (entry.1, value) else entry := by
  induction entries with
  | nil => simp at present
  | cons entry entries ih =>
    obtain ⟨isKey, keyed⟩ := List.forall_mem_cons.mp keyed
    obtain ⟨others, apart⟩ := List.pairwise_cons.mp apart
    rw [insert, List.map_cons]
    by_cases here : entry.1.same key
    -- the entry with the key is the only one, so what comes after it stays
    · have rest : entries.map (fun entry => if entry.1.same key then (entry.1, value) else entry)
          = entries := by
        refine (List.map_congr_left fun other member => if_neg fun again => ?_).trans entries.map_id
        have equal := ((same_iff isKey).mp here).trans ((same_iff (keyed other member)).mp again).symm
        exact others other.1 (List.mem_map_of_mem member) ((same_iff isKey).mpr equal)
      rw [if_pos here, if_pos here, rest]
    · have later : ∃ entry ∈ entries, entry.1.same key := by simpa [here] using present
      rw [if_neg here, if_neg here, ih keyed apart later]

/-! ## Keys in the order in which they came -/

/-- The keys that are not the same as an earlier one. -/
def firstForms (keys : List Value) : List Value :=
  (keys.zipIdx.filter fun (key, place) => !(keys.take place).any (·.same key)).map (·.1)

theorem firstForms_concat (keys : List Value) (key : Value) :
    firstForms (keys ++ [key])
      = firstForms keys ++ if keys.any (·.same key) then [] else [key] := by
  have before : keys.zipIdx.filter (fun p => !((keys ++ [key]).take p.2).any (·.same p.1))
      = keys.zipIdx.filter fun p => !(keys.take p.2).any (·.same p.1) := by
    refine List.filter_congr fun p member => ?_
    have place : p.2 < keys.length := by simpa using List.snd_lt_of_mem_zipIdx member
    rw [List.take_append_of_le_length (Nat.le_of_lt place)]
  unfold firstForms
  rw [List.zipIdx_append, List.filter_append, List.map_append]
  congr 1
  · exact congrArg _ before
  · cases present : keys.any (·.same key) <;> simp [present]

theorem mem_of_mem_firstForms {keys : List Value} (member : key ∈ firstForms keys) : key ∈ keys := by
  obtain ⟨⟨key, place⟩, listed, rfl⟩ := List.mem_map.mp member
  exact List.fst_mem_of_mem_zipIdx (List.mem_filter.mp listed).1

/-! ## The entries of a list of pairs -/

/-- The entries that pairs amount to: each key once, at the place and in the form in which it came
first, with the value that came with it last. -/
structure Collects (pairs : List (Value × Value)) (entries : Entries) : Prop where
  apart : Apart (entries.map (·.1))
  keys : entries.map (·.1) = firstForms (pairs.map (·.1))
  all : ∀ pair ∈ pairs, ∃ entry ∈ entries, entry.1.same pair.1
  values : ∀ entry ∈ entries,
    (pairs.filter fun pair => pair.1.same entry.1).getLast?.map (·.2) = some entry.2

theorem collects_nil : Collects [] [] := ⟨.nil, rfl, nofun, nofun⟩

theorem Collects.keyed (collects : Collects pairs entries) (keyed : ∀ pair ∈ pairs, pair.1.isKey) :
    ∀ entry ∈ entries, entry.1.isKey := by
  intro entry member
  have listed : entry.1 ∈ firstForms (pairs.map (·.1)) := by
    rw [← collects.keys]
    exact List.mem_map_of_mem member
  obtain ⟨pair, came, same⟩ := List.mem_map.mp (mem_of_mem_firstForms listed)
  rw [← same]
  exact keyed pair came

theorem last_concat (pairs : List (Value × Value)) (key value other : Value) :
    ((pairs ++ [(key, value)]).filter fun pair => pair.1.same other).getLast?.map (·.2)
      = if key.same other then some value
        else (pairs.filter fun pair => pair.1.same other).getLast?.map (·.2) := by
  rw [List.filter_append]
  by_cases same : key.same other <;> simp [same]

theorem Collects.append (collects : Collects pairs entries) (keyed : ∀ pair ∈ pairs, pair.1.isKey)
    (isKey : key.isKey) (absent : ∀ entry ∈ entries, ¬ entry.1.same key) (value : Value) :
    Collects (pairs ++ [(key, value)]) (entries ++ [(key, value)]) := by
  have itself : key.same key := (same_iff isKey).mpr rfl
  have unlike : ∀ entry ∈ entries, ¬ key.same entry.1 := by
    intro entry member same
    refine absent entry member ((same_iff (collects.keyed keyed entry member)).mpr ?_)
    exact ((same_iff isKey).mp same).symm
  have new : (pairs.map (·.1)).any (·.same key) = false := by
    rw [List.any_map, List.any_eq_false]
    intro pair came same
    obtain ⟨entry, member, alike⟩ := collects.all pair came
    have entryKey := collects.keyed keyed entry member
    refine absent entry member ((same_iff entryKey).mpr ?_)
    exact ((same_iff entryKey).mp alike).trans ((same_iff (keyed pair came)).mp same)
  constructor
  · rw [Apart, List.map_append, List.pairwise_append]
    refine ⟨collects.apart, List.pairwise_singleton .., ?_⟩
    simpa using absent
  · simp [firstForms_concat, collects.keys, new]
  · intro pair came
    rcases List.mem_append.mp came with came | last
    · obtain ⟨entry, member, alike⟩ := collects.all pair came
      exact ⟨entry, List.mem_append_left _ member, alike⟩
    · obtain rfl := List.mem_singleton.mp last
      exact ⟨_, List.mem_append_right _ (List.mem_singleton_self _), itself⟩
  · intro entry member
    rw [last_concat]
    rcases List.mem_append.mp member with member | last
    · rw [if_neg (unlike entry member), collects.values entry member]
    · obtain rfl := List.mem_singleton.mp last
      rw [if_pos itself]

theorem Collects.replace (collects : Collects pairs entries) (keyed : ∀ pair ∈ pairs, pair.1.isKey)
    (isKey : key.isKey) (present : ∃ entry ∈ entries, entry.1.same key) (value : Value) :
    Collects (pairs ++ [(key, value)])
      (entries.map fun entry => if entry.1.same key then (entry.1, value) else entry) := by
  have symm {entry : Value × Value} (member : entry ∈ entries) :
      entry.1.same key ↔ key.same entry.1 := by
    rw [same_iff (collects.keyed keyed entry member), same_iff isKey, eq_comm]
  have kept : (entries.map fun entry => if entry.1.same key then (entry.1, value) else entry).map
      (·.1) = entries.map (·.1) := by
    rw [List.map_map]
    refine List.map_congr_left fun entry _ => ?_
    dsimp only [Function.comp]
    split <;> rfl
  have known : (pairs.map (·.1)).any (·.same key) := by
    obtain ⟨entry, member, same⟩ := present
    have listed : entry.1 ∈ firstForms (pairs.map (·.1)) := by
      rw [← collects.keys]
      exact List.mem_map_of_mem member
    exact List.any_eq_true.mpr ⟨entry.1, mem_of_mem_firstForms listed, same⟩
  have stays {other : Value} (found : ∃ entry ∈ entries, entry.1.same other) :
      ∃ entry ∈ entries.map fun entry => if entry.1.same key then (entry.1, value) else entry,
        entry.1.same other := by
    obtain ⟨entry, member, same⟩ := found
    refine ⟨_, List.mem_map_of_mem member, ?_⟩
    split <;> exact same
  constructor
  · rw [kept]
    exact collects.apart
  · simp [kept, firstForms_concat, collects.keys, known]
  · intro pair came
    rcases List.mem_append.mp came with came | last
    · exact stays (collects.all pair came)
    · obtain rfl := List.mem_singleton.mp last
      exact stays present
  · intro changed member
    obtain ⟨entry, listed, rfl⟩ := List.mem_map.mp member
    rw [last_concat]
    by_cases same : entry.1.same key
    · rw [if_pos same, if_pos ((symm listed).mp same)]
    · rw [if_neg same, if_neg ((symm listed).not.mp same), collects.values entry listed]

theorem Collects.insert (collects : Collects pairs entries) (keyed : ∀ pair ∈ pairs, pair.1.isKey)
    (isKey : key.isKey) (value : Value) :
    Collects (pairs ++ [(key, value)]) (entries.insert key value) := by
  by_cases present : ∃ entry ∈ entries, entry.1.same key
  · rw [insert_of_present (collects.keyed keyed) collects.apart present]
    exact collects.replace keyed isKey present value
  · have absent : ∀ entry ∈ entries, ¬ entry.1.same key := fun entry member same =>
      present ⟨entry, member, same⟩
    rw [insert_of_absent absent]
    exact collects.append keyed isKey absent value

theorem Collects.unique {others : Entries} (collects : Collects pairs entries)
    (again : Collects pairs others) : entries = others := by
  have determined {entries : Entries} (collects : Collects pairs entries) :
      entries = (firstForms (pairs.map (·.1))).map fun key =>
        (key, ((pairs.filter fun pair => pair.1.same key).getLast?.map (·.2)).getD .null) := by
    rw [← collects.keys, List.map_map]
    refine entries.map_id.symm.trans (List.map_congr_left fun entry member => ?_)
    dsimp only [Function.comp]
    rw [collects.values entry member, Option.getD_some]
    rfl
  rw [determined collects, determined again]

/-! ## Putting in all pairs -/

theorem ofPairs_append (pairs more : List (Value × Value)) :
    ofPairs (pairs ++ more) = ofPairs pairs >>= fun entries => entries.insertPairs more :=
  List.foldlM_append

theorem ofPairs_concat (pairs : List (Value × Value)) (pair : Value × Value) :
    ofPairs (pairs ++ [pair]) = ofPairs pairs >>= fun entries => entries.insertPair pair := by
  simp [ofPairs_append, insertPairs]

theorem exists_ofPairs (keyed : ∀ pair ∈ pairs, pair.1.isKey) :
    ∃ entries, ofPairs pairs = .ok entries ∧ Collects pairs entries := by
  -- from the end of the list: the pairs so far are the ones that the entries collect
  induction pairs using List.reverseRecOn with
  | nil => exact ⟨[], rfl, collects_nil⟩
  | append_singleton pairs pair ih =>
    obtain ⟨keyed, isKey⟩ := List.forall_mem_append.mp keyed
    have isKey := isKey pair (List.mem_singleton_self _)
    obtain ⟨entries, done, collects⟩ := ih keyed
    refine ⟨entries.insert pair.1 pair.2, ?_, collects.insert keyed isKey pair.2⟩
    rw [ofPairs_concat, done]
    exact if_pos isKey

theorem insertPairs_eq_error {fault : Fault} :
    insertPairs entries pairs = .error fault
      ↔ fault = .typeMismatch ∧ ∃ pair ∈ pairs, pair.1.Changeable := by
  induction pairs generalizing entries with
  | nil => simp [insertPairs, pure, Except.pure]
  | cons pair pairs ih =>
    rw [insertPairs, List.foldlM_cons, insertPair]
    -- the first key that cannot be one ends the fold, whatever is there by then
    by_cases isKey : pair.1.isKey
    · have fixed := isKey_iff.mp isKey
      have others : insertPairs (insert entries pair.1 pair.2) pairs = .error fault ↔ _ := ih
      rw [if_pos isKey]
      exact others.trans (by simp [fixed])
    · have changeable : pair.1.Changeable := not_not.mp (isKey_iff.not.mp isKey)
      rw [if_neg isKey]
      simp [changeable, bind, Except.bind, eq_comm]

theorem ofPairs_eq_error {fault : Fault} :
    ofPairs pairs = .error fault ↔ fault = .typeMismatch ∧ ∃ pair ∈ pairs, pair.1.Changeable :=
  insertPairs_eq_error

theorem keyed_of_ofPairs (done : ofPairs pairs = .ok entries) : ∀ pair ∈ pairs, pair.1.isKey := by
  intro pair came
  by_contra isKey
  have changeable : pair.1.Changeable := not_not.mp (isKey_iff.not.mp isKey)
  cases done.symm.trans (ofPairs_eq_error.mpr ⟨rfl, pair, came, changeable⟩)

theorem ofPairs_eq_ok :
    ofPairs pairs = .ok entries ↔ (∀ pair ∈ pairs, pair.1.isKey) ∧ Collects pairs entries := by
  constructor
  · intro done
    have keyed := keyed_of_ofPairs done
    obtain ⟨others, found, collects⟩ := exists_ofPairs keyed
    cases done.symm.trans found
    exact ⟨keyed, collects⟩
  · rintro ⟨keyed, collects⟩
    obtain ⟨others, found, again⟩ := exists_ofPairs keyed
    rw [found, collects.unique again]

theorem ofPairs_of_apart (keyed : ∀ entry ∈ entries, entry.1.isKey)
    (apart : Apart (entries.map (·.1))) : ofPairs entries = .ok entries := by
  induction entries using List.reverseRecOn with
  | nil => rfl
  | append_singleton entries entry ih =>
    rw [Apart, List.map_append, List.pairwise_append] at apart
    obtain ⟨apart, -, absent⟩ := apart
    obtain ⟨keyed, isKey⟩ := List.forall_mem_append.mp keyed
    rw [ofPairs_concat, ih keyed apart]
    have last : insert entries entry.1 entry.2 = entries ++ [entry] :=
      insert_of_absent (by simpa using absent) entry.2
    rw [← last]
    exact if_pos (isKey entry (List.mem_singleton_self _))

end Entries

/-! ## Dictionaries of values -/

/-- The items of a value, each of them as a pair. -/
def pairs (v : Value) : Except Fault (List (Value × Value)) := v.items >>= List.mapM toPair

/-- The list of the entries of a dictionary, as pairs. -/
def listing (entries : Entries) : Value := .list (entries.map fun entry => .pair entry.1 entry.2)

theorem foldlM_insertItem_of_pairs {items : List Value} {pairs : List (Value × Value)}
    (each : items.mapM toPair = .ok pairs) (entries : Entries) :
    items.foldlM insertItem entries = entries.insertPairs pairs := by
  induction items generalizing pairs entries with
  | nil =>
    cases each
    rfl
  | cons item items ih =>
    cases first : item.toPair with
    | error fault =>
      rw [List.mapM_cons, first] at each
      cases each
    | ok pair =>
      rw [List.mapM_cons, first] at each
      cases rest : items.mapM toPair with
      | error fault =>
        rw [rest] at each
        cases each
      | ok pairs =>
        rw [rest] at each
        cases each
        rw [List.foldlM_cons, insertItem, first, Entries.insertPairs, List.foldlM_cons]
        exact congrArg _ (funext fun entries => ih rest entries)

theorem toDict_eq_of_pairs {v : Value} {pairs : List (Value × Value)} (each : v.pairs = .ok pairs) :
    v.toDict = .dict <$> Entries.ofPairs pairs := by
  cases listed : v.items with
  | error fault =>
    rw [Value.pairs, listed] at each
    cases each
  | ok items =>
    rw [Value.pairs, listed] at each
    rw [toDict, listed]
    show (items.foldlM insertItem [] >>= fun entries => _) = _
    rw [foldlM_insertItem_of_pairs each]
    rfl

theorem pairs_listing (entries : Entries) : (listing entries).pairs = .ok entries := by
  show (entries.map fun entry => Value.pair entry.1 entry.2).mapM toPair = .ok entries
  induction entries with
  | nil => rfl
  | cons entry entries ih =>
    rw [List.map_cons, List.mapM_cons, ih]
    rfl

theorem toDict_eq_ok {v : Value} {pairs : List (Value × Value)} (each : v.pairs = .ok pairs)
    {entries : Entries} : v.toDict = .ok (.dict entries) ↔ Entries.ofPairs pairs = .ok entries := by
  rw [toDict_eq_of_pairs each]
  cases Entries.ofPairs pairs <;> simp [Functor.map, Except.map]

/-- The dictionary of a value whose items are pairs. It has each key in its first form and place, with
its last value, and there is none exactly if a key is or holds a list or a dictionary. A dictionary is
that of its own entries, and further pairs are put into it one by one. -/
theorem toDict_first_places_last_values :
    (∀ v w : Value, v.isKey → (v.same w ↔ v.sense = w.sense)) ∧
    (∀ v : Value, v.isKey ↔ ¬ v.Changeable) ∧
    ∀ (v : Value) (pairs : List (Value × Value)), v.pairs = .ok pairs →
      ((∀ pair ∈ pairs, ¬ pair.1.Changeable) → ∃ entries, v.toDict = .ok (.dict entries)) ∧
      (∀ entries, v.toDict = .ok (.dict entries) ↔
        (∀ pair ∈ pairs, ¬ pair.1.Changeable) ∧ Entries.Collects pairs entries) ∧
      (∀ fault, v.toDict = .error fault ↔
        fault = .typeMismatch ∧ ∃ pair ∈ pairs, pair.1.Changeable) ∧
      ∀ entries, v.toDict = .ok (.dict entries) →
        (listing entries).toDict = .ok (.dict entries) ∧
        ∀ (more : List (Value × Value)) (w : Value), w.pairs = .ok (pairs ++ more) →
          w.toDict = .dict <$> more.foldlM Entries.insertPair entries := by
  refine ⟨fun v w => same_iff, fun v => isKey_iff, fun v pairs each => ⟨?_, ?_, ?_, ?_⟩⟩
  · intro fixed
    obtain ⟨entries, done, -⟩ := Entries.exists_ofPairs fun pair came => isKey_iff.mpr (fixed pair came)
    exact ⟨entries, (toDict_eq_ok each).mpr done⟩
  · intro entries
    simp only [toDict_eq_ok each, Entries.ofPairs_eq_ok, isKey_iff]
  · intro fault
    rw [toDict_eq_of_pairs each, ← Entries.ofPairs_eq_error]
    cases Entries.ofPairs pairs <;> simp [Functor.map, Except.map]
  · intro entries done
    rw [toDict_eq_ok each] at done
    obtain ⟨keyed, collects⟩ := Entries.ofPairs_eq_ok.mp done
    refine ⟨(toDict_eq_ok (pairs_listing entries)).mpr ?_, fun more w whole => ?_⟩
    · exact Entries.ofPairs_of_apart (collects.keyed keyed) collects.apart
    · rw [toDict_eq_of_pairs whole, Entries.ofPairs_append, done]
      rfl

/-- Two keys come back in another form, the second one inside a tuple; a key may not hold a list. -/
theorem toDict_first_places_last_values_mixed :
    let pairs : List (Value × Value) :=
      [(.bool true, .str ['a']), (.int 2, .str ['b']), (.int 1, .str ['c']),
        (.tuple [.int 1, .bool false], .str ['d']), (.tuple [.bool true, .int 0], .str ['e'])]
    let entries : Entries :=
      [(.bool true, .str ['c']), (.int 2, .str ['b']), (.tuple [.int 1, .bool false], .str ['e'])]
    (listing pairs).pairs = .ok pairs ∧ (listing pairs).toDict = .ok (.dict entries) ∧
    (listing entries).toDict = .ok (.dict entries) ∧
    (listing [(.null, .null), (.tuple [.int 1, .list []], .null)]).toDict = .error .typeMismatch := by
  intro pairs entries
  obtain ⟨-, -, each⟩ := toDict_first_places_last_values
  have done : (listing pairs).toDict = .ok (.dict entries) := rfl
  have refused : (Value.tuple [.int 1, .list []]).Changeable :=
    .tuple (List.mem_cons_of_mem _ (List.mem_singleton_self _)) (.list [])
  refine ⟨rfl, done, ((each _ pairs rfl).2.2.2 entries done).1, ?_⟩
  refine ((each _ _ (pairs_listing _)).2.2.1 .typeMismatch).mpr ⟨rfl, (_, .null), ?_, refused⟩
  exact List.mem_cons_of_mem _ (List.mem_singleton_self _)

end Descent.Value

import Descent.Proofs.Dictionary

/-!
# Dictionaries of texts

The dictionary that a list of pairs amounts to, where the keys are texts: every key stands once, at
the place of its first occurrence, with the value of its last one. The fold that puts in one pair
after the other gives these entries.
-/

namespace Descent.Value

def lastValue? (pairs : List (Text × Value)) (key : Text) : Option Value :=
  pairs.reverse.lookup key

/-- The entries of a list of pairs: keys in the order of their first occurrences, each with the
value of its last one. -/
def Entries.ofTexts (pairs : List (Text × Value)) : Entries :=
  (pairs.map (·.1)).eraseDups.map fun key => (.str key, (lastValue? pairs key).getD .null)

namespace Entries

theorem lastValue?_concat (pairs : List (Text × Value)) (key other : Text) (value : Value) :
    lastValue? (pairs ++ [(key, value)]) other
      = if other = key then some value else lastValue? pairs other := by
  unfold lastValue?
  rw [List.reverse_append, List.reverse_singleton, List.singleton_append, List.lookup_cons]
  by_cases same : other = key
  · simp [same]
  · rw [if_neg same, beq_false_of_ne same]

theorem eraseDups_concat (keys : List Text) (key : Text) :
    (keys ++ [key]).eraseDups
      = if key ∈ keys then keys.eraseDups else keys.eraseDups ++ [key] := by
  rw [List.eraseDups_append, List.cons_removeAll]
  by_cases member : key ∈ keys <;> simp [member, List.eraseDups_cons]

theorem nodup_eraseDups (keys : List Text) : keys.eraseDups.Nodup := by
  induction keys using List.reverseRecOn with
  | nil => exact .nil
  | append_singleton keys key ih =>
    rw [eraseDups_concat]
    split
    · exact ih
    · next absent =>
      refine List.nodup_append.mpr ⟨ih, List.nodup_singleton key, fun k inside other single => ?_⟩
      rw [List.mem_singleton.mp single]
      exact ne_of_mem_of_not_mem (List.mem_eraseDups.mp inside) absent

theorem str_same (s t : Text) : (Value.str s).same (.str t) = decide (s = t) := by
  simp [Value.same]

theorem insert_of_mem {keys : List Text} (nodup : keys.Nodup) {key : Text} (member : key ∈ keys)
    (values : Text → Value) (value : Value) :
    insert (keys.map fun k => (.str k, values k)) (.str key) value
      = keys.map fun k => (.str k, if k = key then value else values k) := by
  have keyed : ∀ entry ∈ keys.map fun k => (Value.str k, values k), entry.1.isKey := by simp [isKey]
  have apart : Apart ((keys.map fun k => (Value.str k, values k)).map (·.1)) := by
    rw [Apart, List.map_map, List.pairwise_map]
    exact nodup.imp fun differs => by simpa [str_same] using differs
  have present : ∃ entry ∈ keys.map fun k => (Value.str k, values k), entry.1.same (.str key) :=
    ⟨_, List.mem_map_of_mem member, by simp [str_same]⟩
  rw [insert_of_present keyed apart present, List.map_map]
  refine List.map_congr_left fun k _ => ?_
  simp only [Function.comp, str_same, decide_eq_true_eq]
  split <;> rfl

theorem insert_of_not_mem {keys : List Text} {key : Text} (absent : key ∉ keys)
    (values : Text → Value) (value : Value) :
    insert (keys.map fun k => (.str k, values k)) (.str key) value
      = (keys.map fun k => (.str k, values k)) ++ [(.str key, value)] := by
  refine insert_of_absent (fun entry member same => ?_) value
  obtain ⟨k, inside, rfl⟩ := List.mem_map.mp member
  rw [str_same, decide_eq_true_eq] at same
  exact absent (same ▸ inside)

theorem ofTexts_concat (pairs : List (Text × Value)) (key : Text) (value : Value) :
    ofTexts (pairs ++ [(key, value)]) = (ofTexts pairs).insert (.str key) value := by
  have values (k : Text) : (lastValue? (pairs ++ [(key, value)]) k).getD .null
      = if k = key then value else (lastValue? pairs k).getD .null := by
    rw [lastValue?_concat]
    split <;> rfl
  unfold ofTexts
  simp only [values, List.map_append, List.map_cons, List.map_nil]
  rw [eraseDups_concat]
  split
  · next member =>
    rw [insert_of_mem (nodup_eraseDups _) (List.mem_eraseDups.mpr member)]
  · next absent =>
    rw [insert_of_not_mem (List.mem_eraseDups.not.mpr absent), List.map_append, List.map_singleton,
      if_pos rfl]
    congr 1
    refine List.map_congr_left fun k inside => ?_
    rw [if_neg (ne_of_mem_of_not_mem (List.mem_eraseDups.mp inside) absent)]

/-- Where no key is repeated, the pairs are the entries. -/
theorem ofTexts_of_nodup {pairs : List (Text × Value)} (nodup : (pairs.map (·.1)).Nodup) :
    ofTexts pairs = pairs.map fun p => (.str p.1, p.2) := by
  induction pairs using List.reverseRecOn with
  | nil => rfl
  | append_singleton pairs last ih =>
    rw [List.map_append, List.nodup_append] at nodup
    have absent : last.1 ∉ (pairs.map (·.1)).eraseDups := by
      rw [List.mem_eraseDups]
      intro member
      exact nodup.2.2 _ member last.1 (List.mem_singleton_self _) rfl
    have inserted : (ofTexts pairs).insert (.str last.1) last.2
        = ofTexts pairs ++ [(.str last.1, last.2)] := insert_of_not_mem absent _ _
    rw [ofTexts_concat, inserted, ih nodup.1, List.map_append, List.map_singleton]

theorem mem_ofTexts {pairs : List (Text × Value)} {entry : Value × Value}
    (member : entry ∈ ofTexts pairs) :
    ∃ pair ∈ pairs, entry = (.str pair.1, pair.2) := by
  obtain ⟨key, occurs, rfl⟩ := List.mem_map.mp member
  obtain ⟨first, inside, rfl⟩ := List.mem_map.mp (List.mem_eraseDups.mp occurs)
  have found : (lastValue? pairs first.1).isSome :=
    List.lookup_isSome_iff.mpr ⟨first, List.mem_reverse.mpr inside, BEq.rfl⟩
  obtain ⟨value, last⟩ := Option.isSome_iff_exists.mp found
  obtain ⟨_, _, shape, -⟩ := List.lookup_eq_some_iff.mp last
  have listed : (first.1, value) ∈ pairs := by
    rw [← List.mem_reverse, shape]
    exact List.mem_append_cons_self
  exact ⟨_, listed, by rw [last, Option.getD_some]⟩

theorem nodup_keys_ofTexts (pairs : List (Text × Value)) :
    ((ofTexts pairs).map (·.1)).Nodup := by
  have keys : (ofTexts pairs).map (·.1) = ((pairs.map (·.1)).eraseDups).map Value.str := by
    simp [ofTexts]
  rw [keys]
  exact (nodup_eraseDups _).map fun _ _ => Value.str.inj

theorem foldlM_insertItem (pairs : List (Text × Value)) :
    (pairs.map fun p => Value.pair (.str p.1) p.2).foldlM insertItem [] = .ok (ofTexts pairs) := by
  induction pairs using List.reverseRecOn with
  | nil => rfl
  | append_singleton pairs last ih =>
    rw [List.map_append, List.foldlM_append, ih, ofTexts_concat]
    rfl

end Entries

theorem toDict_pairs (pairs : List (Text × Value)) :
    toDict (.list (pairs.map fun p => Value.pair (.str p.1) p.2))
      = .ok (.dict (Entries.ofTexts pairs)) := by
  simp only [toDict, items, bind, Except.bind]
  rw [Entries.foldlM_insertItem]
  rfl

theorem toDict_of_keyed {items : List Value}
    (keyed : ∀ item ∈ items, ∃ key value, item = Value.pair (.str key) value) :
    ∃ dict, toDict (.list items) = .ok dict := by
  have pairs : ∃ pairs : List (Text × Value),
      items = pairs.map fun p => Value.pair (.str p.1) p.2 := by
    induction items with
    | nil => exact ⟨[], rfl⟩
    | cons item items ih =>
      obtain ⟨⟨key, value, rfl⟩, others⟩ := List.forall_mem_cons.mp keyed
      obtain ⟨pairs, rfl⟩ := ih others
      exact ⟨(key, value) :: pairs, rfl⟩
  obtain ⟨pairs, rfl⟩ := pairs
  exact ⟨_, toDict_pairs pairs⟩

end Descent.Value

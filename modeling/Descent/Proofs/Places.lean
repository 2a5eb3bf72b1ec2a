import Descent.Proofs.Acceptance.Basic
import Descent.Proofs.Comparison.Hosts
import Mathlib.Data.List.Nodup

/-!
# The places of what was built

Every reference that keeps what it finds has a slot, and a slot is named by its place. Main statement:
in whatever a session has built, a slot belongs to one place alone, with one target and one recursive
parser around it.

A part has its slots below its own address, and the addresses of two parts beside one another differ.
What a name stands for brings only places that were there before. Whatever is built later has a higher
number, so its slots are new.
-/

namespace Descent

theorem Address.eq_of_suffix {address slot : Address} {i j : Nat} (left : (i :: address) <:+ slot)
    (right : (j :: address) <:+ slot) : i = j := by
  have nested := List.suffix_of_suffix_length_le left right (by simp)
  have same := nested.eq_of_length (by simp)
  exact (List.cons.inj same).1

/-- Different slots, all of them below an address. -/
structure Address.Spread (address : Address) (slots : List Address) : Prop where
  nodup : slots.Nodup
  below : ∀ slot ∈ slots, address <:+ slot

namespace Address.Spread

variable {address : Address} {left right : List Address} {i j : Nat}

theorem nil (address : Address) : address.Spread [] :=
  ⟨.nil, nofun⟩

theorem single (address : Address) : address.Spread [address] :=
  ⟨List.nodup_singleton address, fun _ inside => List.mem_singleton.mp inside ▸ List.suffix_refl _⟩

theorem filter (h : address.Spread left) (keep : Address → Bool) :
    address.Spread (left.filter keep) :=
  ⟨h.nodup.filter keep, fun slot inside => h.below slot (List.mem_filter.mp inside).1⟩

theorem weaken (h : Address.Spread (i :: address) left) : address.Spread left :=
  ⟨h.nodup, fun slot inside => (List.suffix_cons i address).trans (h.below slot inside)⟩

theorem append (hl : address.Spread left) (hr : address.Spread right)
    (apart : left.Disjoint right) : address.Spread (left ++ right) :=
  ⟨List.nodup_append'.mpr ⟨hl.nodup, hr.nodup, apart⟩,
    fun slot inside => (List.mem_append.mp inside).elim (hl.below slot) (hr.below slot)⟩

end Address.Spread

/-! ## Slots of places -/

/-- Two places without a slot in common. -/
def Place.Apart (x y : Place Link) : Prop := ∀ slot ∈ x.ref.slot, slot ∉ y.ref.slot

/-- A slot belongs to one place alone. -/
def Place.Distinct (places : Set (Place Link)) : Prop :=
  ∀ x ∈ places, ∀ y ∈ places, x = y ∨ x.Apart y

/-- All slots of a set of places lie below an address. -/
def Place.Below (address : Option Address) (places : Set (Place Link)) : Prop :=
  ∀ place ∈ places, ∀ slot ∈ place.ref.slot, ∃ base ∈ address, base <:+ slot

namespace Place

theorem Apart.symm {x y : Place Link} (h : x.Apart y) : y.Apart x :=
  fun slot inY inX => h slot inX inY

theorem Distinct.mono {places more : Set (Place Link)} (h : Distinct more) (sub : places ⊆ more) :
    Distinct places :=
  fun x inX y inY => h x (sub inX) y (sub inY)

theorem Distinct.union {left right : Set (Place Link)} (hl : Distinct left) (hr : Distinct right)
    (apart : ∀ x ∈ left, ∀ y ∈ right, x.Apart y) : Distinct (left ∪ right) := by
  rintro x (inX | inX) y (inY | inY)
  · exact hl x inX y inY
  · exact .inr (apart x inX y inY)
  · exact .inr (apart y inY x inX).symm
  · exact hr x inX y inY

theorem Below.apart_none {left right : Set (Place Link)} (none : Below .none right) :
    ∀ x ∈ left, ∀ y ∈ right, x.Apart y := by
  intro x _ y inY slot _ here
  obtain ⟨base, absent, -⟩ := none y inY slot here
  cases absent

theorem Below.distinct_none {places : Set (Place Link)} (none : Below .none places) :
    Distinct places :=
  fun x inX y inY => .inr (none.apart_none x inX y inY)

theorem Below.weaken {places : Set (Place Link)} {address : Option Address} {i : Nat}
    (below : Below (address.map (i :: ·)) places) : Below address places := by
  intro place inside slot here
  obtain ⟨_, under, suffix⟩ := below place inside slot here
  obtain ⟨base, known, rfl⟩ := Option.map_eq_some_iff.mp under
  exact ⟨base, known, (List.suffix_cons i base).trans suffix⟩

theorem Below.union {left right : Set (Place Link)} {address : Option Address}
    (hl : Below address left) (hr : Below address right) : Below address (left ∪ right) := by
  rintro place (inside | inside)
  · exact hl place inside
  · exact hr place inside

theorem Below.apart {left right : Set (Place Link)} {address : Option Address} {i j : Nat}
    (hl : Below (address.map (i :: ·)) left) (hr : Below (address.map (j :: ·)) right)
    (differ : i ≠ j) : ∀ x ∈ left, ∀ y ∈ right, x.Apart y := by
  intro x inX y inY slot hereX hereY
  obtain ⟨_, underX, suffixX⟩ := hl x inX slot hereX
  obtain ⟨_, underY, suffixY⟩ := hr y inY slot hereY
  obtain ⟨base, known, rfl⟩ := Option.map_eq_some_iff.mp underX
  obtain ⟨base', known', rfl⟩ := Option.map_eq_some_iff.mp underY
  obtain rfl := Option.mem_unique known known'
  exact differ (Address.eq_of_suffix suffixX suffixY)

end Place

/-! ## Parts -/

namespace Expr

/-- A recursive parser inside an expression has no places beyond those of the expression. -/
theorem places_of_mem {ι : Type} {self p : Expr ι} {place : Place ι} (inside : place ∈ places self p) :
    place.self = self ∨ ∀ other, places other place.self ⊆ places self p := by
  induction p generalizing self with
  | prim p => cases inside
  | unary op p ih => exact ih inside
  | binary op p q ihp ihq =>
    rcases inside with inside | inside
    · exact (ihp inside).imp_right fun sub other => (sub other).trans Set.subset_union_left
    · exact (ihq inside).imp_right fun sub other => (sub other).trans Set.subset_union_right
  | between p left right ihp ihl ihr =>
    rcases inside with (inside | inside) | inside
    · exact (ihp inside).imp_right fun sub other =>
        (sub other).trans (Set.subset_union_left.trans Set.subset_union_left)
    · exact (ihl inside).imp_right fun sub other =>
        (sub other).trans (Set.subset_union_right.trans Set.subset_union_left)
    · exact (ihr inside).imp_right fun sub other => (sub other).trans Set.subset_union_right
  | flatMap p next ihp ihn =>
    rcases inside with inside | ⟨value, inside⟩
    · exact (ihp inside).imp_right fun sub other => (sub other).trans Set.subset_union_left
    · exact (ihn value inside).imp_right fun sub other =>
        (sub other).trans fun place inside => .inr ⟨value, inside⟩
  | fix body ih =>
    rcases ih inside with same | sub
    · exact .inr fun other => by rw [same]; exact subset_rfl
    · exact .inr sub
  | ref r =>
    cases inside
    exact .inl rfl

/-- All places of a parser that may be entered anywhere are known. -/
def Within {ι : Type} (known : Set (Place ι)) (p : Expr ι) : Prop := ∀ self, places self p ⊆ known

theorem Within.mono {ι : Type} {known more : Set (Place ι)} {p : Expr ι} (h : p.Within known)
    (sub : known ⊆ more) : p.Within more :=
  fun self => (h self).trans sub

theorem union_subset_own {ι : Type} {known left right ownL ownR : Set (Place ι)}
    (hl : left ⊆ known ∪ ownL) (hr : right ⊆ known ∪ ownR) :
    left ∪ right ⊆ known ∪ (ownL ∪ ownR) :=
  Set.union_subset (hl.trans (Set.union_subset_union_right known Set.subset_union_left))
    (hr.trans (Set.union_subset_union_right known Set.subset_union_right))

/-- Besides the places that come with names, a part has places of its own, below its address. -/
theorem buildPart_places {env : Env} {known : Set (Place Link)}
    (named : ∀ name p, env.find? name = some p → p.Within known) {grammar : Expr Mention}
    {address : Option Address} {built : Expr Link}
    (done : grammar.buildPart env address = .ok built) (self : Expr Link) :
    ∃ own : Set (Place Link), places self built ⊆ known ∪ own ∧ Place.Below address own ∧
      Place.Distinct own := by
  -- the induction follows the recursion of the build, for any parser around the part
  induction grammar generalizing address built self with
  | prim p =>
    cases done
    exact ⟨∅, Set.empty_subset _, nofun, nofun⟩
  | unary op p ih =>
    obtain ⟨p', doneP, made⟩ := Parser.bind_eq_ok.mp done
    cases made
    exact ih doneP self
  | binary op p q ihp ihq =>
    obtain ⟨p', doneP, done⟩ := Parser.bind_eq_ok.mp done
    obtain ⟨q', doneQ, made⟩ := Parser.bind_eq_ok.mp done
    cases made
    obtain ⟨ownP, subP, belowP, distinctP⟩ := ihp doneP self
    obtain ⟨ownQ, subQ, belowQ, distinctQ⟩ := ihq doneQ self
    exact ⟨ownP ∪ ownQ, union_subset_own subP subQ, belowP.weaken.union belowQ.weaken,
      distinctP.union distinctQ (belowP.apart belowQ (by decide))⟩
  | between p left right ihp ihl ihr =>
    obtain ⟨p', doneP, done⟩ := Parser.bind_eq_ok.mp done
    obtain ⟨l', doneL, done⟩ := Parser.bind_eq_ok.mp done
    obtain ⟨r', doneR, made⟩ := Parser.bind_eq_ok.mp done
    cases made
    obtain ⟨ownP, subP, belowP, distinctP⟩ := ihp doneP self
    obtain ⟨ownL, subL, belowL, distinctL⟩ := ihl doneL self
    obtain ⟨ownR, subR, belowR, distinctR⟩ := ihr doneR self
    have distinctPL := distinctP.union distinctL (belowP.apart belowL (by decide))
    refine ⟨ownP ∪ ownL ∪ ownR, union_subset_own (union_subset_own subP subL) subR,
      (belowP.weaken.union belowL.weaken).union belowR.weaken, distinctPL.union distinctR ?_⟩
    rintro x (inP | inL)
    · exact belowP.apart belowR (by decide) x inP
    · exact belowL.apart belowR (by decide) x inL
  | flatMap p next ihp ihn =>
    obtain ⟨p', doneP, made⟩ := Parser.bind_eq_ok.mp done
    cases made
    obtain ⟨ownP, subP, belowP, distinctP⟩ := ihp doneP self
    -- what a function makes has no slots, so all of its places can be taken together
    let loose : Set (Place Link) := {place | place.ref.slot = none}
    have noSlots : Place.Below none loose := fun place inside slot here => by
      rw [inside] at here
      cases here
    have subNext : {place | ∃ value, place ∈ places self (orRaise ((next value).buildPart env none))}
        ⊆ known ∪ loose := by
      rintro place ⟨value, inside⟩
      cases doneNext : (next value).buildPart env none with
      | error fault =>
        rw [doneNext] at inside
        cases inside
      | ok made =>
        rw [doneNext] at inside
        obtain ⟨own, sub, below, -⟩ := ihn value doneNext self
        refine (sub inside).imp_right fun inOwn => Option.eq_none_iff_forall_not_mem.mpr ?_
        intro slot here
        obtain ⟨base, absent, -⟩ := below place inOwn slot here
        cases absent
    refine ⟨ownP ∪ loose, union_subset_own subP subNext, ?_,
      distinctP.union noSlots.distinct_none noSlots.apart_none⟩
    refine belowP.union fun place inside slot here => ?_
    obtain ⟨base, absent, -⟩ := noSlots place inside slot here
    cases absent
  | fix body ih =>
    obtain ⟨body', doneBody, made⟩ := Parser.bind_eq_ok.mp done
    cases made
    exact ih doneBody (.fix body')
  | ref r =>
    have single (link : Link) (slot : ∀ slot ∈ link.slot, slot ∈ address) :
        ∃ own : Set (Place Link), places self (.ref link) ⊆ known ∪ own ∧
          Place.Below address own ∧ Place.Distinct own := by
      refine ⟨{⟨link, self⟩}, Set.subset_union_right, ?_, ?_⟩
      · rintro place rfl here atPlace
        exact ⟨here, slot here atPlace, List.suffix_refl here⟩
      · rintro x rfl y rfl
        exact .inl rfl
    cases r with
    | use name =>
      simp only [buildPart] at done
      cases found : env.find? name with
      | none =>
        rw [found] at done
        cases done
      | some p =>
        rw [found] at done
        cases done
        exact ⟨∅, (named name _ found self).trans Set.subset_union_left, nofun, nofun⟩
    | delayed target =>
      cases done
      exact single ⟨target, address⟩ fun _ here => here
    | anew target =>
      cases done
      exact single ⟨target, none⟩ nofun
    | refused fault => cases done

/-- The slots of an expression, from left to right. What the function of a `flatMap` makes is left
out, for it brings no slots of its own. -/
def slots : Expr Link → List Address
  | .prim _ => []
  | .unary _ p => p.slots
  | .binary _ p q => p.slots ++ q.slots
  | .between p left right => p.slots ++ left.slots ++ right.slots
  | .flatMap p _ => p.slots
  | .fix body => body.slots
  | .ref link => link.slot.toList

end Expr

/-! ## Sessions -/

namespace Session

theorem build_eq_ok {session after : Session} {grammar : Expr Mention} {p : Expr Link}
    (done : session.build grammar = .ok (p, after)) :
    ∃ body, grammar.buildPart session.env (some [session.builds]) = .ok body ∧ p = .fix body ∧
      after = { session with builds := session.builds + 1 } := by
  obtain ⟨_, built, made⟩ := Parser.bind_eq_ok.mp done
  obtain ⟨body, doneBody, whole⟩ := Parser.bind_eq_ok.mp built
  cases whole
  cases made
  exact ⟨body, doneBody, rfl, rfl⟩

theorem define_eq_ok {session after : Session} {name : String} {grammar : Expr Mention}
    (done : session.define name grammar = .ok after) :
    ∃ p middle, session.build grammar = .ok (p, middle) ∧
      after = { middle with env := middle.env.define name p } := by
  obtain ⟨⟨p, middle⟩, built, made⟩ := Parser.bind_eq_ok.mp done
  cases made
  exact ⟨p, middle, built, rfl⟩

/-- All that a session holds has its places among known ones, where slots are distinct and numbered by
the builds so far. -/
structure Tracks (session : Session) (known : Set (Place Link)) : Prop where
  distinct : Place.Distinct known
  numbered : ∀ place ∈ known, ∀ slot ∈ place.ref.slot, ∃ n < session.builds, slot.getLast? = some n
  closed : ∀ place ∈ known, place.self.Within known
  named : ∀ name p, session.env.find? name = some p → p.Within known

theorem tracks_empty : empty.Tracks ∅ :=
  ⟨nofun, nofun, nofun, nofun⟩

theorem Tracks.build {session after : Session} {known : Set (Place Link)} {grammar : Expr Mention}
    {p : Expr Link} (tracks : session.Tracks known) (done : session.build grammar = .ok (p, after)) :
    ∃ more, known ⊆ more ∧ after.Tracks more ∧ p.Within more := by
  obtain ⟨body, doneBody, rfl, rfl⟩ := build_eq_ok done
  obtain ⟨own, sub, below, distinct⟩ := Expr.buildPart_places tracks.named doneBody (.fix body)
  -- slots of this build end in its number, those of earlier ones in a lower number
  have number : ∀ place ∈ own, ∀ slot ∈ place.ref.slot, slot.getLast? = some session.builds := by
    intro place inside slot here
    obtain ⟨base, root, tail, rfl⟩ := below place inside slot here
    obtain rfl := Option.mem_some_iff.mp root
    simp
  have apart : ∀ x ∈ known, ∀ y ∈ own, x.Apart y := by
    intro x inX y inY slot hereX hereY
    obtain ⟨n, less, last⟩ := tracks.numbered x inX slot hereX
    rw [number y inY slot hereY] at last
    cases last
    exact Nat.lt_irrefl _ less
  have within : (Expr.fix body).Within (known ∪ Expr.places (.fix body) body) :=
    fun _ => Set.subset_union_right
  have whole : known ∪ Expr.places (.fix body) body ⊆ known ∪ own :=
    Set.union_subset Set.subset_union_left sub
  refine ⟨_, Set.subset_union_left, ⟨?_, ?_, ?_, ?_⟩, within⟩
  · exact (tracks.distinct.union distinct apart).mono whole
  · intro place inside slot here
    rcases whole inside with before | new
    · obtain ⟨n, less, last⟩ := tracks.numbered place before slot here
      exact ⟨n, Nat.lt_succ_of_lt less, last⟩
    · exact ⟨_, Nat.lt_succ_self _, number place new slot here⟩
  · rintro place (before | new)
    · exact (tracks.closed place before).mono Set.subset_union_left
    · rcases Expr.places_of_mem new with same | sub
      · rw [same]
        exact within
      · exact fun other => (sub other).trans Set.subset_union_right
  · exact fun name p found => (tracks.named name p found).mono Set.subset_union_left

theorem Tracks.define {session after : Session} {known : Set (Place Link)} {name : String}
    {grammar : Expr Mention} (tracks : session.Tracks known)
    (done : session.define name grammar = .ok after) : ∃ more, known ⊆ more ∧ after.Tracks more := by
  obtain ⟨p, middle, built, rfl⟩ := define_eq_ok done
  obtain ⟨more, sub, tracks, within⟩ := tracks.build built
  refine ⟨more, sub, tracks.distinct, tracks.numbered, tracks.closed, fun other q found => ?_⟩
  simp only [Env.find?, Env.define, List.lookup_cons] at found
  cases same : other == name with
  | true =>
    rw [same] at found
    cases found
    exact within
  | false =>
    rw [same] at found
    exact tracks.named other q found

end Session
end Descent

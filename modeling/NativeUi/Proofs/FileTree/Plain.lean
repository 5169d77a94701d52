import Mathlib.Data.List.Induction
import NativeUi.FileTree
import NativeUi.Proofs.Job
import NativeUi.Proofs.Path

/-!
# Walks along paths

A path starts somewhere and takes steps from there. Where no link is on its way it spells its place,
whatever else stands there, and a walk along the path ends at this place or stops at what is not a
directory.
-/
namespace NativeUi.FileTree

open NativeUi.Path (Step)

variable {t u : FileTree}

def Closed (t : FileTree) : Prop :=
  ∀ p n e, t.get? (p ++ [n]) = some e → t.get? p = some .directory

structure Plain (t : FileTree) : Prop where
  noLink : ∀ p target, t.get? p ≠ some (.link target)
  closed : t.Closed

@[simp] theorem get?_nil : t.get? [] = some .directory := rfl

theorem ne_nil_of_none {p : Place} (h : t.get? p = none) : p ≠ [] := by
  rintro rfl
  cases h

namespace Closed

theorem directory_above (ht : t.Closed) {p q : Place} {e : Entry} (h : p <+: q) (hne : p ≠ q)
    (hq : t.get? q = some e) : t.get? p = some .directory := by
  obtain ⟨r, rfl⟩ := h
  induction r using List.reverseRecOn generalizing e with
  | nil => exact absurd (List.append_nil p).symm hne
  | append_singleton r n ih =>
    have hd : t.get? (p ++ r) = some .directory := ht _ n e (by rwa [List.append_assoc])
    by_cases hr : r = []
    · rwa [hr, List.append_nil] at hd
    · exact ih (by simp [hr]) hd

theorem none_below (ht : t.Closed) {p q : Place} (h : p <+: q) (hp : t.get? p = none) :
    t.get? q = none := by
  by_cases hne : p = q
  · exact hne ▸ hp
  · cases hq : t.get? q with
    | none => rfl
    | some e => exact absurd (hp.symm.trans (ht.directory_above h hne hq)) (by simp)

theorem get?_above (ht : t.Closed) {p : Place} {e : Entry} (hp : t.get? p = some e) :
    t.get? p.dropLast = some .directory := by
  by_cases hne : p = []
  · rw [hne]
    rfl
  · apply ht p.dropLast (p.getLast hne) e
    rwa [List.dropLast_concat_getLast hne]

end Closed

theorem mem_of_lookupAt {depth : Nat} {p : Place} {hs : List Held} {s : Slot}
    (h : lookupAt depth p hs = some s) : ∃ x ∈ hs, x.place = p ∧ x.slot = s := by
  induction hs with
  | nil => cases h
  | cons x hs ih =>
    rw [lookupAt] at h
    split at h
    · next hx =>
      exact ⟨x, List.mem_cons_self, by simpa using ((Bool.and_eq_true _ _).mp hx).2,
        Option.some.inj h⟩
    · obtain ⟨y, hy, he⟩ := ih h
      exact ⟨y, List.mem_cons_of_mem _ hy, he⟩

theorem mem_slots_of_get? {p : Place} (hp : p ≠ []) {e : Entry} (h : t.get? p = some e) :
    ∃ x ∈ t.slots, x.place = p ∧ t.entryOf? x.slot = some e := by
  rw [get?, if_neg (by simpa using hp)] at h
  obtain ⟨s, hs, he⟩ := Option.bind_eq_some_iff.mp h
  obtain ⟨x, hx, hplace, rfl⟩ := mem_of_lookupAt hs
  exact ⟨x, hx, hplace, he⟩

def isClosed (t : FileTree) : Bool :=
  t.slots.all fun h => t.get? h.place.dropLast = some .directory

theorem closed_of_isClosed (h : t.isClosed = true) : t.Closed := by
  intro p n e he
  obtain ⟨x, hx, hplace, -⟩ := mem_slots_of_get? (by simp) he
  have hd := List.all_eq_true.mp h x hx
  simpa [hplace] using hd

def isPlain (t : FileTree) : Bool :=
  t.isClosed && t.slots.all fun h =>
    match t.entryOf? h.slot with
    | some (.link _) => false
    | _ => true

theorem plain_of_isPlain (h : t.isPlain = true) : t.Plain := by
  obtain ⟨hclosed, hall⟩ := (Bool.and_eq_true _ _).mp h
  refine ⟨fun p target he => ?_, closed_of_isClosed hclosed⟩
  have hp : p ≠ [] := by
    rintro rfl
    cases he
  obtain ⟨x, hx, -, hlink⟩ := mem_slots_of_get? hp he
  have hcheck := List.all_eq_true.mp hall x hx
  rw [hlink] at hcheck
  cases hcheck

def ofTexts (dirs : List Place) (files : List (Place × String)) : FileTree :=
  ⟨.at ["work"] (.own .directory) :: dirs.map (fun d => .at ("work" :: d) (.own .directory)) ++
    files.map fun f => .at ("work" :: f.1) (.own (.file (.text f.2) .plain)), [], ["work"], 0⟩

/-! ### The place that a path spells -/

def step (p : Place) : Step → Place
  | .here => p
  | .up => p.dropLast
  | .name n => p ++ [n]

def arrival (p : Place) (ss : List Step) : Place := ss.foldl step p

def stations : Place → List Step → List Place
  | p, [] => [p]
  | p, s :: ss => p :: stations (step p s) ss

theorem stations_nil (p : Place) : stations p [] = [p] := rfl

theorem stations_cons (p : Place) (s : Step) (ss : List Step) :
    stations p (s :: ss) = p :: stations (step p s) ss := rfl

theorem arrival_append (p : Place) (ss ss' : List Step) :
    arrival p (ss ++ ss') = arrival (arrival p ss) ss' :=
  List.foldl_append

theorem mem_stations_append {p q : Place} {ss ss' : List Step} :
    q ∈ stations p (ss ++ ss') ↔ q ∈ stations p ss ∨ q ∈ stations (arrival p ss) ss' := by
  induction ss generalizing p with
  | nil => cases ss' <;> simp [stations_nil, stations_cons, arrival]
  | cons s ss ih =>
    simp only [List.cons_append, stations_cons, List.mem_cons, ih, or_assoc]
    rfl

theorem arrival_mem_stations (p : Place) (ss : List Step) : arrival p ss ∈ stations p ss := by
  induction ss generalizing p with
  | nil => simp [stations_nil, arrival]
  | cons s ss ih => exact List.mem_cons_of_mem _ (ih (step p s))

theorem start_mem_stations (p : Place) (ss : List Step) : p ∈ stations p ss := by
  cases ss <;> exact .head _

theorem mem_stations_concat {p q : Place} {ss : List Step} {s : Step} :
    q ∈ stations p (ss ++ [s]) ↔ q ∈ stations p ss ∨ q = step (arrival p ss) s := by
  have ha := arrival_mem_stations p ss
  simp only [mem_stations_append, stations_cons, stations_nil, List.mem_cons, List.not_mem_nil,
    or_false]
  constructor
  · rintro (hq | rfl | hq)
    · exact .inl hq
    · exact .inl ha
    · exact .inr hq
  · rintro (hq | hq)
    · exact .inl hq
    · exact .inr (.inr hq)

theorem arrival_names (p : Place) (ns : List String) : arrival p (ns.map Step.name) = p ++ ns := by
  induction ns generalizing p with
  | nil => exact (List.append_nil p).symm
  | cons n ns ih =>
    calc arrival p ((n :: ns).map Step.name)
        = arrival (p ++ [n]) (ns.map Step.name) := rfl
      _ = p ++ (n :: ns) := by rw [ih, List.append_assoc, List.singleton_append]

theorem mem_stations_names {p q : Place} {ns : List String} :
    q ∈ stations p (ns.map Step.name) ↔ ∃ r, r <+: ns ∧ q = p ++ r := by
  induction ns generalizing p with
  | nil => simp [stations_nil]
  | cons n ns ih =>
    have hs : step p (.name n) = p ++ [n] := rfl
    rw [List.map_cons, stations_cons, List.mem_cons, hs, ih]
    constructor
    · rintro (rfl | ⟨r, hr, rfl⟩)
      · exact ⟨[], List.nil_prefix, (List.append_nil q).symm⟩
      · exact ⟨n :: r, List.cons_prefix_cons.mpr ⟨rfl, hr⟩, by simp⟩
    · rintro ⟨r, hr, rfl⟩
      cases r with
      | nil => exact .inl (List.append_nil p)
      | cons m r =>
        obtain ⟨rfl, hr'⟩ := List.cons_prefix_cons.mp hr
        exact .inr ⟨r, hr', by simp⟩

/-! ### Where a path starts -/

def start (t : FileTree) (p : Path) : Place :=
  if p.isAbsolute then [] else t.base.take (t.base.length - (Path.climb p.steps).1)

/-- The path leads out of what is lost of the current directory. -/
def Departs (t : FileTree) (p : Path) : Prop :=
  p.isAbsolute = true ∨ t.lost ≤ (Path.climb p.steps).1

instance (t : FileTree) (p : Path) : Decidable (t.Departs p) :=
  inferInstanceAs (Decidable (_ ∨ _))

theorem departure_eq (t : FileTree) (p : Path) :
    t.departure p = if t.Departs p then .ok (t.start p, p.way) else .error .notFound := by
  unfold departure Departs start Path.way
  by_cases ha : p.isAbsolute = true
  · simp only [ha, if_true, true_or]
  · by_cases h : (Path.climb p.steps).1 < t.lost
    · simp only [ha, h, Nat.not_le.mpr h, if_false, if_true, or_self, Bool.false_eq_true]
    · simp only [ha, h, Nat.le_of_not_lt h, if_false, if_true, or_true, Bool.false_eq_true]

theorem departure_ok {p : Path} {x : Place} {ss : List Step} (h : t.departure p = .ok (x, ss)) :
    t.Departs p ∧ t.start p = x ∧ p.way = ss := by
  rw [departure_eq] at h
  split at h
  · next hd => exact ⟨hd, Prod.mk.inj (Except.ok.inj h)⟩
  · cases h

def target (t : FileTree) (p : Path) : Place := arrival (t.start p) p.way

def passed (t : FileTree) (p : Path) : List Place := stations (t.start p) p.way

theorem start_congr (h : u.base = t.base) (p : Path) : u.start p = t.start p := by
  rw [start, start, h]

theorem target_congr (h : u.base = t.base) : u.target = t.target := by
  funext p
  rw [target, target, start_congr h]

theorem passed_congr (h : u.base = t.base) : u.passed = t.passed := by
  funext p
  rw [passed, passed, start_congr h]

theorem Departs.congr {p : Path} (h : t.Departs p) (hl : u.lost = t.lost) : u.Departs p := by
  rwa [Departs, hl]

section Extends

variable {p q : Path} {ns : List String} (h : p.Extends q ns)

include h

theorem start_extends : t.start q = t.start p := by
  rw [start, start, h.isAbsolute, h.steps, Path.climb_append_names]

theorem departs_extends : t.Departs q ↔ t.Departs p := by
  rw [Departs, Departs, h.isAbsolute, h.steps, Path.climb_append_names]

theorem target_extends : t.target q = t.target p ++ ns := by
  rw [target, h.way, arrival_append, start_extends h, arrival_names]
  rfl

theorem mem_passed_extends {x : Place} :
    x ∈ t.passed q ↔ x ∈ t.passed p ∨ ∃ r, r <+: ns ∧ x = t.target p ++ r := by
  rw [passed, h.way, mem_stations_append, start_extends h, mem_stations_names]
  rfl

end Extends

section Dotted

variable {p : Path} (h : p.isAbsolute = false) {n : Nat}

include h

theorem start_dotted : t.start (.dotted n p) = t.start p := by
  rw [start, start, Path.isAbsolute_dotted n h, h, Path.climb_dotted]

theorem departs_dotted : t.Departs (.dotted n p) ↔ t.Departs p := by
  rw [Departs, Departs, Path.isAbsolute_dotted n h, h, Path.climb_dotted]

end Dotted

theorem Departs.prune {p : Path} (h : t.Departs p) {x : Place} (hs : ¬x <+: t.start p) :
    (t.prune x).Departs p := by
  by_cases ha : p.isAbsolute = true
  · exact .inl ha
  have hl : t.lost ≤ (Path.climb p.steps).1 := h.resolve_left ha
  rw [start, if_neg ha] at hs
  refine .inr ?_
  simp only [FileTree.prune]
  split
  · next hx =>
    have hlen : t.base.length - (Path.climb p.steps).1 < x.length := by
      by_contra hle
      exact hs (List.prefix_take_iff.mpr ⟨List.isPrefixOf_iff_prefix.mp hx, by omega⟩)
    omega
  · exact hl

theorem Departs.clear_iff {p : Path} (h : t.Departs p) {x : Place} :
    (t.clear x).Departs p ↔ ¬(x <+: t.start p ∧ x ≠ t.start p) := by
  by_cases ha : p.isAbsolute = true
  · rw [start, if_pos ha]
    exact iff_of_true (.inl ha) fun hx => hx.2 (List.prefix_nil.mp hx.1)
  have hl : t.lost ≤ (Path.climb p.steps).1 := h.resolve_left ha
  have hstart : t.start p = t.base.take (t.base.length - (Path.climb p.steps).1) := if_neg ha
  rw [Departs, hstart, or_iff_right ha, List.prefix_take_iff]
  simp only [FileTree.clear, List.isPrefixOf_iff_prefix]
  by_cases hx : x <+: t.base
  · have hlen := hx.length_le
    have heq : x = t.base.take (t.base.length - (Path.climb p.steps).1) ↔
        x.length = t.base.length - (Path.climb p.steps).1 := by
      rw [List.prefix_iff_eq_take.mp hx, List.length_take, List.take_eq_take_iff]
      omega
    rw [if_pos hx, Ne, heq]
    simp only [hx, true_and]
    omega
  · rw [if_neg hx]
    exact iff_of_true hl fun h => hx h.1.1

/-- The path starts below the place that it leads to. -/
def StartsBelow (t : FileTree) (p : Path) : Prop :=
  t.target p <+: t.start p ∧ t.target p ≠ t.start p

instance (t : FileTree) (p : Path) : Decidable (t.StartsBelow p) :=
  inferInstanceAs (Decidable (_ ∧ _))

theorem startsBelow_congr (h : u.base = t.base) {p : Path} :
    u.StartsBelow p ↔ t.StartsBelow p := by
  rw [StartsBelow, StartsBelow, target_congr h, start_congr h]

/-! ### Walks without links -/

def isShort : Step → Bool
  | .name n => n.utf8ByteSize ≤ nameLimit
  | _ => true

def Short (ss : List Step) : Prop := ∀ s ∈ ss, isShort s = true

theorem short_append {ss ss' : List Step} : Short (ss ++ ss') ↔ Short ss ∧ Short ss' :=
  List.forall_mem_append

theorem short_cons_of {s : Step} {ss : List Step} (hs : isShort s = true) :
    Short (s :: ss) ↔ Short ss :=
  List.forall_mem_cons.trans (and_iff_right hs)

theorem short_climb (ss : List Step) : Short (Path.climb ss).2 ↔ Short ss := by
  fun_induction Path.climb ss with
  | case1 ss ih => exact ih.trans (short_cons_of rfl).symm
  | case2 ss ih => exact ih.trans (short_cons_of rfl).symm
  | case3 ss => rfl

theorem short_way (p : Path) : Short p.way ↔ Short p.steps := by
  rw [Path.way]
  split
  · rfl
  · exact short_climb p.steps

/-- A walk where every step is taken as it is. -/
def reach (t : FileTree) : Place → List Step → Except FileError (Place × Entry)
  | p, [] =>
    match t.get? p with
    | none => .error .notFound
    | some e => .ok (p, e)
  | p, s :: ss =>
    match t.get? p with
    | none => .error .notFound
    | some .directory => if isShort s then t.reach (step p s) ss else .error .nameTooLong
    | some _ => .error .notADirectory

theorem reach_nil (p : Place) :
    t.reach p [] =
      match t.get? p with
      | none => .error .notFound
      | some e => .ok (p, e) := rfl

theorem reach_cons (p : Place) (s : Step) (ss : List Step) :
    t.reach p (s :: ss) =
      match t.get? p with
      | none => .error .notFound
      | some .directory => if isShort s then t.reach (step p s) ss else .error .nameTooLong
      | some _ => .error .notADirectory := rfl

theorem child_eq (p : Place) (n : String) :
    child p n = if isShort (.name n) then .ok (step p (.name n)) else .error .nameTooLong := by
  by_cases hn : n.utf8ByteSize ≤ nameLimit
  · simp [child, isShort, hn, Nat.not_lt.mpr hn, step]
  · simp [child, isShort, hn, Nat.lt_of_not_le hn]

theorem walk_pass {whole : Bool} {through : Place → List Step → Except FileError (Place × Entry)}
    {p : Place} (hp : t.get? p = some .directory) (s : Step) (ss : List Step) :
    t.walk whole through p (s :: ss) =
      if isShort s then t.walk whole through (step p s) ss else .error .nameTooLong := by
  cases s with
  | here => simp [walk, hp, isShort, step]
  | up => simp [walk, hp, isShort, step]
  | name n =>
    simp only [walk, hp, child_eq]
    cases isShort (.name n) <;> rfl

def Unlinked (t : FileTree) (qs : List Place) : Prop :=
  ∀ q ∈ qs, ∀ target, t.get? q ≠ some (.link target)

def isLink : Entry → Bool
  | .link _ => true
  | _ => false

instance (t : FileTree) (qs : List Place) : Decidable (t.Unlinked qs) :=
  decidable_of_iff (∀ q ∈ qs, (t.get? q).any isLink = false) <| by
    refine forall₂_congr fun q _ => ?_
    cases t.get? q with
    | none => simp
    | some e => cases e <;> simp [isLink]

theorem Plain.unlinked (ht : t.Plain) (qs : List Place) : t.Unlinked qs := fun q _ => ht.noLink q

theorem Unlinked.congr {qs : List Place} (h : t.Unlinked qs)
    (hu : ∀ q ∈ qs, u.get? q = t.get? q) : u.Unlinked qs := by
  intro q hq target
  rw [hu q hq]
  exact h q hq target

/-- Where no link is in its way, a walk takes every step as it is. -/
theorem walk_eq_reach {whole : Bool}
    {through : Place → List Step → Except FileError (Place × Entry)} {p : Place} {ss : List Step}
    (h : t.Unlinked (stations p ss)) : t.walk whole through p ss = t.reach p ss := by
  induction ss generalizing p with
  | nil =>
    rw [walk, reach_nil]
    cases hp : t.get? p with
    | none => rfl
    | some e =>
      cases e with
      | file c r => rfl
      | directory => rfl
      | link l => exact absurd hp (h p (.head _) l)
  | cons s ss ih =>
    obtain ⟨hl, h⟩ := List.forall_mem_cons.mp h
    rw [reach_cons]
    cases hp : t.get? p with
    | none => simp only [walk, hp]
    | some e =>
      cases e with
      | file c r => simp only [walk, hp]
      | link l => exact absurd hp (hl l)
      | directory => rw [walk_pass hp, ih h]

theorem follow_eq_reach {p : Place} {ss : List Step} (h : t.Unlinked (stations p ss))
    (whole : Bool) (links : Nat) : t.follow whole links p ss = t.reach p ss := by
  cases links with
  | zero => exact walk_eq_reach h
  | succ links => exact walk_eq_reach h

theorem reach_append (p : Place) (ss : List Step) (s : Step) (rest : List Step) :
    t.reach p (ss ++ s :: rest) =
      match t.reach p ss with
      | .ok (q, _) => t.reach q (s :: rest)
      | .error e => .error e := by
  induction ss generalizing p with
  | nil =>
    rw [List.nil_append, reach_cons, reach_nil]
    cases hp : t.get? p with
    | none => rfl
    | some e => simp only [reach_cons, hp]
  | cons r ss ih =>
    rw [List.cons_append, reach_cons, reach_cons]
    cases t.get? p with
    | none => rfl
    | some e =>
      cases e with
      | file c r => rfl
      | link l => rfl
      | directory =>
        cases isShort r with
        | false => rfl
        | true => exact ih (step p r)

theorem reach_append_of_error {p : Place} {ss : List Step} {e : FileError}
    (h : t.reach p ss = .error e) (rest : List Step) : t.reach p (ss ++ rest) = .error e := by
  cases rest with
  | nil => rwa [List.append_nil]
  | cons s rest => rw [reach_append, h]

theorem reach_cons_ok {p : Place} {s : Step} {ss : List Step} {x : Place × Entry} :
    t.reach p (s :: ss) = .ok x ↔
      t.get? p = some .directory ∧ isShort s = true ∧ t.reach (step p s) ss = .ok x := by
  rw [reach_cons]
  cases hp : t.get? p with
  | none => simp
  | some e =>
    cases e with
    | file c r => simp
    | link l => simp
    | directory => cases hs : isShort s <;> simp

theorem reach_ok {p q : Place} {ss : List Step} {e : Entry} (h : t.reach p ss = .ok (q, e)) :
    q = arrival p ss ∧ t.get? q = some e := by
  induction ss generalizing p with
  | nil =>
    rw [reach_nil] at h
    split at h
    · cases h
    · next hp =>
      cases h
      exact ⟨rfl, hp⟩
  | cons s ss ih => exact ih (reach_cons_ok.mp h).2.2

theorem directory_of_reach {p q : Place} {ss : List Step}
    (h : t.reach p ss = .ok (q, .directory)) :
    ∀ x ∈ stations p ss, t.get? x = some .directory := by
  induction ss generalizing p with
  | nil =>
    obtain ⟨rfl, hp⟩ := reach_ok h
    simpa [stations_nil, arrival] using hp
  | cons s ss ih =>
    obtain ⟨hp, -, h⟩ := reach_cons_ok.mp h
    exact List.forall_mem_cons.mpr ⟨hp, ih h⟩

theorem directory_or_end_of_reach {p q : Place} {ss : List Step} {e : Entry}
    (h : t.reach p ss = .ok (q, e)) :
    ∀ x ∈ stations p ss, t.get? x = some .directory ∨ x = q := by
  induction ss generalizing p with
  | nil =>
    obtain ⟨rfl, -⟩ := reach_ok h
    exact fun x hx => .inr (List.mem_singleton.mp hx)
  | cons s ss ih =>
    obtain ⟨hp, -, h⟩ := reach_cons_ok.mp h
    exact List.forall_mem_cons.mpr ⟨.inl hp, ih h⟩

theorem reach_congr {p : Place} {ss : List Step}
    (h : ∀ q ∈ stations p ss, u.get? q = t.get? q) : u.reach p ss = t.reach p ss := by
  induction ss generalizing p with
  | nil => rw [reach_nil, reach_nil, h p (.head _)]
  | cons s ss ih =>
    obtain ⟨hp, hss⟩ := List.forall_mem_cons.mp h
    rw [reach_cons, reach_cons, hp, ih hss]

def Free (t : FileTree) (p : Place) : Prop := t.get? p = none ∨ t.get? p = some .directory

theorem unlinked_of_free {qs : List Place} (h : ∀ q ∈ qs, t.Free q) : t.Unlinked qs := by
  intro q hq target hl
  rcases h q hq with h | h <;> rw [h] at hl <;> cases hl

theorem reach_free {p : Place} {ss : List Step} (h : ∀ q ∈ stations p ss, t.Free q) :
    t.reach p ss = .error .nameTooLong ∨
      (t.reach p ss = .error .notFound ∧ ∃ q ∈ stations p ss, t.get? q = none) ∨
      (t.reach p ss = .ok (arrival p ss, .directory) ∧
        ∀ q ∈ stations p ss, t.get? q = some .directory) := by
  induction ss generalizing p with
  | nil =>
    rcases h p (.head _) with hp | hp
    · exact .inr (.inl ⟨by rw [reach_nil, hp], p, .head _, hp⟩)
    · exact .inr (.inr ⟨by rw [reach_nil, hp]; rfl, by simpa [stations_nil] using hp⟩)
  | cons s ss ih =>
    obtain ⟨hp, hss⟩ := List.forall_mem_cons.mp h
    rcases hp with hp | hp
    · exact .inr (.inl ⟨by rw [reach_cons, hp], p, .head _, hp⟩)
    · cases hs : isShort s with
      | false =>
        left
        simp [reach_cons, hp, hs]
      | true =>
        have hr : t.reach p (s :: ss) = t.reach (step p s) ss := by simp [reach_cons, hp, hs]
        rw [hr]
        rcases ih hss with hr | ⟨hr, q, hq, hn⟩ | ⟨hr, hd⟩
        · exact .inl hr
        · exact .inr (.inl ⟨hr, q, List.mem_cons_of_mem _ hq, hn⟩)
        · exact .inr (.inr ⟨hr, List.forall_mem_cons.mpr ⟨hp, hd⟩⟩)

theorem isShort_of_reach {p : Place} {ss : List Step} {x : Place × Entry}
    (h : t.reach p ss = .ok x) : Short ss := by
  induction ss generalizing p with
  | nil => simp [Short]
  | cons s ss ih =>
    obtain ⟨-, hs, h⟩ := reach_cons_ok.mp h
    exact List.forall_mem_cons.mpr ⟨hs, ih h⟩

theorem reach_of_directories {p : Place} {ss : List Step} (hs : Short ss)
    (h : ∀ q ∈ stations p ss, t.get? q = some .directory) :
    t.reach p ss = .ok (arrival p ss, .directory) := by
  induction ss generalizing p with
  | nil =>
    rw [reach_nil, h p (.head _)]
    rfl
  | cons s ss ih =>
    obtain ⟨hs, hss⟩ := List.forall_mem_cons.mp hs
    obtain ⟨hp, h⟩ := List.forall_mem_cons.mp h
    exact reach_cons_ok.mpr ⟨hp, hs, ih hss h⟩

theorem Closed.reach_names (ht : t.Closed) {p : Place} {ns : List String}
    (hs : Short (ns.map Step.name)) {e : Entry} (h : t.get? (p ++ ns) = some e) :
    t.reach p (ns.map Step.name) = .ok (p ++ ns, e) := by
  induction ns generalizing p with
  | nil =>
    rw [List.append_nil] at h ⊢
    rw [List.map_nil, reach_nil, h]
  | cons n ns ih =>
    obtain ⟨hn, hns⟩ := List.forall_mem_cons.mp hs
    have hp : t.get? p = some .directory :=
      ht.directory_above (List.prefix_append p _) (by simp) h
    rw [← List.singleton_append, ← List.append_assoc] at h ⊢
    exact reach_cons_ok.mpr ⟨hp, hn, ih hns h⟩

theorem Closed.free_of_reach (ht : t.Closed) {p : Place} {ns : List String}
    (h : t.reach p (ns.map Step.name) = .error .notFound) :
    ∀ q ∈ stations p (ns.map Step.name), t.Free q := by
  induction ns generalizing p with
  | nil =>
    rw [List.map_nil, reach_nil] at h
    split at h
    · next hp => simpa [stations_nil] using .inl hp
    · cases h
  | cons n ns ih =>
    cases hp : t.get? p with
    | none =>
      intro q hq
      obtain ⟨r, -, rfl⟩ := mem_stations_names.mp hq
      exact .inl (ht.none_below (List.prefix_append p r) hp)
    | some e =>
      rw [List.map_cons, reach_cons, hp] at h
      cases e with
      | file c r => cases h
      | link l => cases h
      | directory =>
        simp only at h
        split at h
        · exact List.forall_mem_cons.mpr ⟨.inr hp, ih h⟩
        · cases h

theorem file_of_reach {p : Place} {ss : List Step} (hl : t.Unlinked (stations p ss))
    (h : t.reach p ss = .error .notADirectory) :
    ∃ ss₁ s rest q c r, ss = ss₁ ++ s :: rest ∧ t.reach p ss₁ = .ok (q, .file c r) := by
  induction ss generalizing p with
  | nil =>
    rw [reach_nil] at h
    split at h <;> cases h
  | cons s ss ih =>
    rw [reach_cons] at h
    split at h
    · cases h
    · next hp =>
      split at h
      · next hs =>
        obtain ⟨ss₁, s', rest, q, c, r, rfl, hr⟩ := ih (List.forall_mem_cons.mp hl).2 h
        exact ⟨s :: ss₁, s', rest, q, c, r, rfl, reach_cons_ok.mpr ⟨hp, hs, hr⟩⟩
      · cases h
    · next e hd hp =>
      cases e with
      | file c r => exact ⟨[], s, ss, p, c, r, rfl, by rw [reach_nil, hp]⟩
      | directory => exact absurd rfl hd
      | link l => exact absurd hp (hl p (.head _) l)

theorem reach_error {p : Place} {ss : List Step} (hs : Short ss) {e : FileError}
    (h : t.reach p ss = .error e) : e = .notFound ∨ e = .notADirectory := by
  induction ss generalizing p with
  | nil =>
    rw [reach_nil] at h
    split at h
    · exact .inl (Except.error.inj h).symm
    · cases h
  | cons s ss ih =>
    obtain ⟨hs, hss⟩ := List.forall_mem_cons.mp hs
    rw [reach_cons] at h
    split at h
    · exact .inl (Except.error.inj h).symm
    · rw [if_pos hs] at h
      exact ih hss h
    · exact .inr (Except.error.inj h).symm

theorem not_short_of_reach {p : Place} {ss : List Step}
    (h : t.reach p ss = .error .nameTooLong) : ¬Short ss := by
  intro hs
  rcases reach_error hs h with h | h <;> cases h

/-! ### Paths and walks -/

def Fits (p : Path) : Prop := p.text.utf8ByteSize ≤ pathLimit ∧ Short p.steps

instance (p : Path) : Decidable (Fits p) :=
  inferInstanceAs (Decidable (_ ∧ ∀ s ∈ p.steps, isShort s = true))

theorem Fits.of_extends {p q : Path} {ns : List String} (h : p.Extends q ns) (hq : Fits q) :
    Fits p := by
  obtain ⟨hsize, hshort⟩ := hq
  rw [h.steps] at hshort
  exact ⟨Nat.le_trans h.size hsize, (short_append.mp hshort).1⟩

theorem route_eq {p : Path} (hp : p.EndsInName) (hz : '\x00' ∉ p.text.toList) :
    t.route p =
      if pathLimit < p.text.utf8ByteSize then .error .nameTooLong
      else if t.Departs p then .ok (t.start p, p.way) else .error .notFound := by
  have hc : p.text.toList.contains '\x00' = false := by simpa using hz
  rw [route, hc, if_neg Bool.false_ne_true, if_neg (by simpa using hp.text_ne), departure_eq]

theorem find_eq {p : Path} (hl : t.Unlinked (t.passed p)) (hp : p.EndsInName)
    (hz : '\x00' ∉ p.text.toList) :
    t.find p =
      if pathLimit < p.text.utf8ByteSize then .error .nameTooLong
      else if t.Departs p then t.reach (t.start p) p.way else .error .notFound := by
  have hs : lastStep p = [] := by rw [lastStep, hp.endsInSlash, if_neg Bool.false_ne_true]
  rw [find, route_eq hp hz, hs]
  split
  · simp only [error_bind]
  · split
    · simp only [ok_bind, List.append_nil, follow_eq_reach hl]
    · simp only [error_bind]

theorem findNamed_eq {p : Path} (hl : t.Unlinked (t.passed p)) (hp : p.EndsInName)
    (hz : '\x00' ∉ p.text.toList) : t.findNamed p = t.find p := by
  have hs : lastStep p = [] := by rw [lastStep, hp.endsInSlash, if_neg Bool.false_ne_true]
  rw [findNamed, find, route_eq hp hz, hs]
  split
  · simp only [error_bind]
  · split
    · simp only [ok_bind, List.append_nil, follow_eq_reach hl]
    · simp only [error_bind]

theorem find_ok {p : Path} (hl : t.Unlinked (t.passed p)) (hp : p.EndsInName)
    {x : Place × Entry} (h : t.find p = .ok x) :
    '\x00' ∉ p.text.toList ∧ p.text.utf8ByteSize ≤ pathLimit ∧ t.Departs p ∧
      t.reach (t.start p) p.way = .ok x := by
  have hz : '\x00' ∉ p.text.toList := by
    intro hz
    have hc : p.text.toList.contains '\x00' = true := by simpa using hz
    have hr : t.route p = .error .zeroInName := by rw [route, if_pos hc]
    rw [find, hr, error_bind] at h
    cases h
  rw [find_eq hl hp hz] at h
  split at h
  · cases h
  · next hs =>
    split at h
    · next hd => exact ⟨hz, Nat.le_of_not_lt hs, hd, h⟩
    · cases h

theorem isFile_of_readText {p : Path} {s : String} (h : t.readText p = .ok s) :
    t.isFile p = true := by
  rw [readText] at h
  obtain ⟨⟨place, e⟩, hfind, h⟩ := bind_eq_ok_iff.mp h
  rw [isFile, hfind]
  cases e with
  | file content rights => rfl
  | directory => cases h
  | link target => cases h

theorem find_congr {p : Path} (hl : t.Unlinked (t.passed p)) (hb : u.base = t.base)
    (hd : u.Departs p ↔ t.Departs p) (hp : p.EndsInName)
    (h : ∀ q ∈ t.passed p, u.get? q = t.get? q) : u.find p = t.find p := by
  have hl' : u.Unlinked (u.passed p) := by
    rw [passed_congr hb]
    exact hl.congr h
  by_cases hz : '\x00' ∈ p.text.toList
  · have hc : p.text.toList.contains '\x00' = true := by simpa using hz
    rw [find, find, route, route, if_pos hc, if_pos hc, error_bind, error_bind]
  · simp only [find_eq hl hp hz, find_eq hl' hp hz, hd, start_congr hb, reach_congr h]

end NativeUi.FileTree

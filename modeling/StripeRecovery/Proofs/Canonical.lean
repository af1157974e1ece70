import StripeRecovery.Proofs.NormalForm
import StripeRecovery.Proofs.JsonText

/-!
There is one normal form for what a list of extents says of the bytes. So the order of the
list, repeated and empty extents and the places where an extent is cut do not show in it, and
it is read back from its own text as it is.
-/
namespace StripeRecovery

namespace Extent

def Fits (e : Extent) : Prop :=
  e.first < UInt64.size ∧ e.past < UInt64.size ∧ e.version < UInt64.size

theorem ofJson?_toJson {e : Extent} (fits : e.Fits) : ofJson? e.toJson = some e := by
  obtain ⟨first, past, version⟩ := fits
  simp [ofJson?, toJson, fieldNames, Json.fields?, Json.required?, Json.word?, first, past, version]

theorem plain_toJson (e : Extent) : e.toJson.Plain := by
  refine .obj fun f member => ?_
  simp only [fieldNames, List.zip_cons_cons, List.mem_cons] at member
  rcases member with rfl | rfl | rfl | none
  · exact .nat _
  · exact .nat _
  · exact .nat _
  · simp at none

end Extent

namespace Committed

variable {raw other extents rest rest' : List Extent} {c : Committed} {d e : Extent}
  {version byte : Nat}

theorem assigns_congr (same : ∀ e, e ∈ raw ↔ e ∈ other) :
    Assigns raw version byte ↔ Assigns other version byte := by
  simp only [Assigns, same]

theorem assigns_append :
    Assigns (raw ++ other) version byte ↔ Assigns raw version byte ∨ Assigns other version byte := by
  simp only [Assigns, List.mem_append, or_and_right, exists_or]

theorem Normal.assigns_from (normal : Normal (e :: rest))
    (assigned : Assigns (e :: rest) version byte) : e.first ≤ byte := by
  rcases assigns_cons.mp assigned with ⟨_, inside⟩ | later
  · exact inside.1
  · have filled := normal.filled e (by simp)
    have behind := normal.assigns_later later
    omega

theorem Normal.not_assigns_past (normal : Normal (e :: rest)) :
    ¬ Assigns (e :: rest) e.version e.past := by
  intro assigned
  rcases assigns_cons.mp assigned with ⟨_, inside⟩ | ⟨d, member, version_eq, inside⟩
  · exact Nat.lt_irrefl _ inside.2
  · cases rest with
    | nil => simp at member
    | cons next rest =>
      have apart := (List.isChain_cons_cons.mp normal.apart).1
      have starts := inside.1
      rcases List.mem_cons.mp member with rfl | there
      · exact apart.2 (Nat.le_antisymm apart.1 starts) version_eq.symm
      · have filled := normal.filled next (by simp)
        have behind := normal.tail.later d there
        omega

theorem Normal.assigns_tail (normal : Normal (e :: rest)) :
    Assigns rest version byte ↔ Assigns (e :: rest) version byte ∧ e.past ≤ byte := by
  constructor
  · intro later
    exact ⟨assigns_cons.mpr (.inr later), normal.assigns_later later⟩
  · rintro ⟨assigned, behind⟩
    rcases assigns_cons.mp assigned with ⟨_, inside⟩ | later
    · exact absurd inside.2 (Nat.not_lt.mpr behind)
    · exact later

theorem Normal.assigns_first (normal : Normal (e :: rest)) :
    Assigns (e :: rest) e.version e.first :=
  assigns_of_mem List.mem_cons_self ⟨Nat.le_refl _, normal.filled e List.mem_cons_self⟩

theorem Normal.past_le (normal : Normal (d :: rest'))
    (same : ∀ byte, Assigns (e :: rest) e.version byte → Assigns (d :: rest') e.version byte)
    (first_eq : e.first = d.first) (version_eq : e.version = d.version) : e.past ≤ d.past := by
  by_contra longer
  have filled := normal.filled d (by simp)
  have inside : e.Contains d.past := ⟨by omega, Nat.lt_of_not_le longer⟩
  have assigned := same _ (assigns_of_mem List.mem_cons_self inside)
  rw [version_eq] at assigned
  exact normal.not_assigns_past assigned

theorem Normal.head_eq (normal : Normal (e :: rest)) (normal' : Normal (d :: rest'))
    (same : ∀ version byte, Assigns (e :: rest) version byte ↔ Assigns (d :: rest') version byte) :
    e = d := by
  have there := (same _ _).mp normal.assigns_first
  have back := (same _ _).mpr normal'.assigns_first
  have first_eq : e.first = d.first :=
    Nat.le_antisymm (normal.assigns_from back) (normal'.assigns_from there)
  have version_eq : e.version = d.version := by
    obtain ⟨x, member, version, contains⟩ := there
    have inside : d.Contains e.first := ⟨first_eq.ge, first_eq ▸ normal'.filled d (by simp)⟩
    rw [← version]
    exact normal'.consistent x member d (by simp) e.first contains inside
  have past_eq : e.past = d.past :=
    Nat.le_antisymm (normal'.past_le (fun b => (same _ b).mp) first_eq version_eq)
      (normal.past_le (fun b => (same _ b).mpr) first_eq.symm version_eq.symm)
  cases e
  cases d
  simp_all

theorem Normal.unique (normal : Normal raw) (normal' : Normal other)
    (same : ∀ version byte, Assigns raw version byte ↔ Assigns other version byte) :
    raw = other := by
  induction raw generalizing other with
  | nil =>
    cases other with
    | nil => rfl
    | cons d rest' => exact absurd ((same _ _).mpr normal'.assigns_first) assigns_nil
  | cons e rest ih =>
    cases other with
    | nil => exact absurd ((same _ _).mp normal.assigns_first) assigns_nil
    | cons d rest' =>
      obtain rfl := normal.head_eq normal' same
      congr 1
      refine ih normal.tail normal'.tail fun version byte => ?_
      rw [normal.assigns_tail, normal'.assigns_tail, same]

theorem normalize_eq_ok_iff : normalize raw = .ok c ↔ (∀ e ∈ raw, e.first ≤ e.past) ∧
    Normal c.extents ∧ ∀ version byte, Assigns c.extents version byte ↔ Assigns raw version byte := by
  constructor
  · intro done
    exact ⟨normalize_forward done, normalize_ok done⟩
  · rintro ⟨forward, normal, same⟩
    have sound : Sound raw := ⟨forward, normal.consistent.congr fun v b => (same v b).mpr⟩
    obtain ⟨c', done⟩ := normalize_ok_iff.mpr sound
    obtain ⟨normal', same'⟩ := normalize_ok done
    have one : c'.extents = c.extents :=
      normal'.unique normal fun v b => (same' v b).trans (same v b).symm
    rw [done, show c' = c from congrArg Committed.mk one]

theorem normalize_congr (done : normalize raw = .ok c) (forward : ∀ e ∈ other, e.first ≤ e.past)
    (same : ∀ version byte, Assigns other version byte ↔ Assigns raw version byte) :
    normalize other = .ok c := by
  obtain ⟨_, normal, means⟩ := normalize_eq_ok_iff.mp done
  exact normalize_eq_ok_iff.mpr
    ⟨forward, normal, fun v b => (means v b).trans (same v b).symm⟩

theorem normalize_members (done : normalize raw = .ok c) (same : ∀ e, e ∈ other ↔ e ∈ raw) :
    normalize other = .ok c :=
  normalize_congr done (fun e member => normalize_forward done e ((same e).mp member))
    fun _ _ => assigns_congr same

theorem normalize_extents (done : normalize raw = .ok c) : normalize c.extents = .ok c := by
  obtain ⟨_, normal, _⟩ := normalize_eq_ok_iff.mp done
  exact normalize_eq_ok_iff.mpr
    ⟨fun e member => (normal.filled e member).le, normal, fun _ _ => Iff.rfl⟩

theorem not_assigns_empty (empty : ∀ e ∈ raw, e.first = e.past) : ¬ Assigns raw version byte := by
  rintro ⟨e, member, _, inside⟩
  have := empty e member
  have := inside.1
  have := inside.2
  omega

theorem assigns_cut {inner : Nat} (inside : e.first ≤ inner ∧ inner ≤ e.past) :
    Assigns ({ e with past := inner } :: { e with first := inner } :: rest) version byte ↔
      Assigns (e :: rest) version byte := by
  have cut : e.Contains byte ↔
      Extent.Contains { e with past := inner } byte ∨ Extent.Contains { e with first := inner } byte := by
    simp only [Extent.Contains]
    omega
  simp only [assigns_cons, cut, and_or_left, or_assoc]

theorem mapM_ofJson? (fits : ∀ e ∈ extents, e.Fits) :
    (extents.map Extent.toJson).mapM Extent.ofJson? = some extents := by
  induction extents with
  | nil => rfl
  | cons e rest ih =>
    have first := Extent.ofJson?_toJson (fits e (by simp))
    have others := ih fun d member => fits d (by simp [member])
    simp [first, others]

theorem normalize_fits (done : normalize raw = .ok c) (fits : ∀ e ∈ raw, e.Fits) :
    ∀ e ∈ c.extents, e.Fits := by
  intro e member
  obtain ⟨_, normal, means⟩ := normalize_eq_ok_iff.mp done
  have filled := normal.filled e member
  have within : ∀ byte, e.Contains byte → ∃ d ∈ raw, d.version = e.version ∧ d.Contains byte :=
    fun byte inside => (means _ _).mp (assigns_of_mem member inside)
  obtain ⟨a, ha, version, starts⟩ := within e.first ⟨Nat.le_refl _, filled⟩
  obtain ⟨b, hb, _, ends⟩ := within (e.past - 1) ⟨by omega, by omega⟩
  have fits_a := fits a ha
  have fits_b := fits b hb
  simp only [Extent.Fits, Extent.Contains] at fits_a fits_b starts ends ⊢
  omega

theorem plain_toJson (c : Committed) : c.toJson.Plain := by
  refine .arr fun v member => ?_
  obtain ⟨e, _, rfl⟩ := List.mem_map.mp member
  exact e.plain_toJson

theorem read_back (done : normalize raw = .ok c) (fits : ∀ e ∈ raw, e.Fits) :
    (Json.parse? (Json.print c.toJson)).bind ofJson? = some c := by
  rw [Json.parse?_print c.plain_toJson, Option.bind_some, toJson, ofJson?,
    mapM_ofJson? (normalize_fits done fits)]
  simp only [bind, Option.bind, normalize_extents done]

/-- Two lists have one normal form just if they give the same bytes the same versions. So the
    normal form does not change with the order of the list, repeated extents, empty extents or
    an extent cut in two, no order of a rejected list is accepted, a normal form is its own
    normal form, and it is what its text is read back as. -/
theorem normal_form_canonical :
    (∀ raw other c c', normalize raw = .ok c → normalize other = .ok c' →
      (c = c' ↔ ∀ version byte, Assigns raw version byte ↔ Assigns other version byte)) ∧
    (∀ raw other fault, normalize raw = .error fault → raw.Perm other →
      ∃ fault', normalize other = .error fault') ∧
    ∀ raw c, normalize raw = .ok c →
      (∀ other, raw.Perm other → normalize other = .ok c) ∧
      (∀ other, (∀ e, e ∈ other ↔ e ∈ raw) → normalize other = .ok c) ∧
      (∀ before empty after, raw = before ++ after → (∀ e ∈ empty, e.first = e.past) →
        normalize (before ++ empty ++ after) = .ok c) ∧
      (∀ before e after inner, raw = before ++ e :: after → e.first < inner → inner < e.past →
        normalize (before ++ { e with past := inner } :: { e with first := inner } :: after) =
          .ok c) ∧
      normalize c.extents = .ok c ∧
      ((∀ e ∈ raw, e.Fits) → (Json.parse? (Json.print c.toJson)).bind ofJson? = some c) := by
  refine ⟨?canonical, ?rejected, fun raw c done =>
    ⟨?reordered, fun other => normalize_members done, ?padded, ?cut, normalize_extents done,
      read_back done⟩⟩
  case canonical =>
    intro raw other c c' done done'
    obtain ⟨_, normal, means⟩ := normalize_eq_ok_iff.mp done
    obtain ⟨_, normal', means'⟩ := normalize_eq_ok_iff.mp done'
    constructor
    · rintro rfl version byte
      exact (means version byte).symm.trans (means' version byte)
    · intro same
      refine congrArg Committed.mk (normal.unique normal' fun version byte => ?_)
      rw [means, means', same]
  case rejected =>
    intro raw other fault failed order
    cases done : normalize other with
    | error fault' => exact ⟨fault', rfl⟩
    | ok c =>
      rw [normalize_members done fun e => order.mem_iff] at failed
      contradiction
  case reordered =>
    intro other order
    exact normalize_members done fun e => order.mem_iff.symm
  case padded =>
    rintro before empty after rfl nothing
    have forward := normalize_forward done
    refine normalize_congr done (fun e member => ?_) fun version byte => ?_
    · simp only [List.mem_append] at member forward
      rcases member with (there | there) | there
      · exact forward e (.inl there)
      · exact (nothing e there).le
      · exact forward e (.inr there)
    · simp only [assigns_append, not_assigns_empty nothing, or_false]
  case cut =>
    rintro before e after inner rfl starts ends
    have forward := normalize_forward done
    refine normalize_congr done (fun d member => ?_) fun version byte => ?_
    · simp only [List.mem_append, List.mem_cons] at member forward
      rcases member with there | rfl | rfl | there
      · exact forward d (.inl there)
      · exact starts.le
      · exact ends.le
      · exact forward d (.inr (.inr there))
    · simp only [assigns_append, assigns_cut ⟨starts.le, ends.le⟩]

/-- Two lists of the same bytes: one cut and out of order, the other with overlaps. -/
theorem normal_form_canonical_two_lists :
    let raw : List Extent := [⟨40, 60, 3⟩, ⟨0, 25, 1⟩, ⟨25, 40, 1⟩]
    let other : List Extent := [⟨0, 30, 1⟩, ⟨10, 40, 1⟩, ⟨50, 50, 9⟩, ⟨40, 60, 3⟩]
    (∀ version byte, Assigns raw version byte ↔ Assigns other version byte) ∧
      normalize [⟨25, 40, 1⟩, ⟨40, 60, 3⟩, ⟨0, 25, 1⟩] = normalize raw ∧
      (Json.parse? (Json.print (toJson ⟨[⟨0, 40, 1⟩, ⟨40, 60, 3⟩]⟩))).bind ofJson? =
        some ⟨[⟨0, 40, 1⟩, ⟨40, 60, 3⟩]⟩ := by
  intro raw other
  have done : normalize raw = .ok ⟨[⟨0, 40, 1⟩, ⟨40, 60, 3⟩]⟩ := by cbv
  have done' : normalize other = .ok ⟨[⟨0, 40, 1⟩, ⟨40, 60, 3⟩]⟩ := by cbv
  obtain ⟨canonical, _, unchanged⟩ := normal_form_canonical
  obtain ⟨reordered, _, _, _, _, read⟩ := unchanged raw _ done
  refine ⟨(canonical raw other _ _ done done').mp rfl, ?_, read ?_⟩
  · rw [reordered _ (by decide), done]
  · simp [raw, Extent.Fits, UInt64.size]

end Committed
end StripeRecovery

import AnnotationMetadata.Model.Hierarchy
import Mathlib.Data.List.Infix
import Mathlib.Data.List.Nodup
import Mathlib.Logic.Relation

set_option autoImplicit false

/-!
# Explored declarations

An exploration lists elements depth first. It lists exactly what can be reached
along links, each element once, and each of them after some element that links to
it. It does not wait for the other elements that link to it.
-/

namespace AnnotationMetadata.Model

variable {model : Model} {links : String → ElementDeclaration → List Link}

/-- A declared element links to another name. -/
def LinksTo (model : Model) (links : String → ElementDeclaration → List Link)
    (name other : String) : Prop :=
  ∃ declaration, model.declaration? name = some declaration ∧
    ∃ link ∈ links name declaration, link.name = other

section Steps

variable {link : Link} {rest : List Link} {listed : List String}

theorem explore_of_listed (member : link.name ∈ listed) :
    model.explore links (link :: rest) listed = model.explore links rest listed := by
  rw [explore, dif_pos member]

theorem explore_of_unknown (unlisted : link.name ∉ listed)
    (unknown : model.declaration? link.name = none) :
    model.explore links (link :: rest) listed = .error (.failure link.complaint) := by
  rw [explore, dif_neg unlisted]
  split
  · rfl
  · next found => cases unknown.symm.trans found

theorem explore_of_found (unlisted : link.name ∉ listed) {declaration : ElementDeclaration}
    (found : model.declaration? link.name = some declaration) :
    model.explore links (link :: rest) listed =
      model.explore links (links link.name declaration ++ rest) (listed ++ [link.name]) := by
  rw [explore, dif_neg unlisted]
  split
  · next unknown => cases found.symm.trans unknown
  · next again =>
    cases found.symm.trans again
    rfl

end Steps

/-- How an exploration of what is pending goes on from a list to its result. -/
inductive Explored (model : Model) (links : String → ElementDeclaration → List Link) :
    List Link → List String → List String → Prop where
  | done {listed : List String} : Explored model links [] listed listed
  | known {link : Link} {rest : List Link} {listed result : List String}
      (member : link.name ∈ listed) (explored : Explored model links rest listed result) :
      Explored model links (link :: rest) listed result
  | fresh {link : Link} {rest : List Link} {listed result : List String}
      {declaration : ElementDeclaration} (unlisted : link.name ∉ listed)
      (found : model.declaration? link.name = some declaration)
      (explored : Explored model links (links link.name declaration ++ rest)
        (listed ++ [link.name]) result) :
      Explored model links (link :: rest) listed result

theorem explored_of_explore {pending : List Link} {listed result : List String}
    (ended : model.explore links pending listed = .ok result) :
    Explored model links pending listed result := by
  induction pending, listed using explore.induct model links with
  | case1 listed =>
    rw [explore] at ended
    cases ended
    exact .done
  | case2 listed link rest member ih =>
    exact .known member (ih ((explore_of_listed member).symm.trans ended))
  | case3 listed link rest unlisted unknown =>
    cases (explore_of_unknown unlisted unknown).symm.trans ended
  | case4 listed link rest unlisted declaration found ih =>
    exact .fresh unlisted found (ih ((explore_of_found unlisted found).symm.trans ended))

theorem Explored.explore_eq {pending : List Link} {listed result : List String}
    (explored : Explored model links pending listed result) :
    model.explore links pending listed = .ok result := by
  induction explored with
  | done => rw [explore]
  | known member _ ih => exact (explore_of_listed member).trans ih
  | fresh unlisted found _ ih => exact (explore_of_found unlisted found).trans ih

/-! ## What is listed -/

theorem Explored.isPrefix {pending : List Link} {listed result : List String}
    (explored : Explored model links pending listed result) : listed <+: result := by
  induction explored with
  | done => exact List.prefix_rfl
  | known _ _ ih => exact ih
  | fresh _ _ _ ih => exact (List.prefix_append _ _).trans ih

theorem Explored.subset {pending : List Link} {listed result : List String}
    (explored : Explored model links pending listed result) :
    listed ⊆ result ∧ ∀ link ∈ pending, link.name ∈ result := by
  refine ⟨explored.isPrefix.subset, ?_⟩
  induction explored with
  | done => simp
  | known member explored ih =>
    intro link pending
    rcases List.mem_cons.mp pending with rfl | later
    · exact explored.isPrefix.subset member
    · exact ih link later
  | fresh _ _ explored ih =>
    intro link pending
    rcases List.mem_cons.mp pending with rfl | later
    · exact explored.isPrefix.subset (by simp)
    · exact ih link (List.mem_append_right _ later)

/-- What an exploration adds to a list is declared. -/
theorem Explored.declared {pending : List Link} {listed result : List String}
    (explored : Explored model links pending listed result)
    (declared : ∀ name ∈ listed, (model.declaration? name).isSome) :
    ∀ name ∈ result, (model.declaration? name).isSome := by
  induction explored with
  | done => exact declared
  | known _ _ ih => exact ih declared
  | fresh _ found _ ih =>
    refine ih fun name member => ?_
    rcases List.mem_append.mp member with before | new
    · exact declared name before
    · rw [List.mem_singleton.mp new, found]
      rfl

theorem Explored.nodup {pending : List Link} {listed result : List String}
    (explored : Explored model links pending listed result) (distinct : listed.Nodup) :
    result.Nodup := by
  induction explored with
  | done => exact distinct
  | known _ _ ih => exact ih distinct
  | fresh unlisted _ _ ih =>
    refine ih (List.nodup_append.mpr ⟨distinct, List.nodup_singleton _, ?_⟩)
    rintro name member last new rfl
    exact unlisted (List.mem_singleton.mp new ▸ member)

/-- The first of what is pending comes next, unless it is listed. -/
theorem Explored.concat_isPrefix {link : Link} {rest : List Link} {listed result : List String}
    (explored : Explored model links (link :: rest) listed result)
    (unlisted : link.name ∉ listed) : listed ++ [link.name] <+: result := by
  cases explored with
  | known member => exact absurd member unlisted
  | fresh _ _ explored => exact explored.isPrefix

theorem Explored.closed {pending : List Link} {listed result : List String}
    (explored : Explored model links pending listed result)
    (closed : ∀ name ∈ listed, ∀ other, model.LinksTo links name other →
      other ∈ listed ∨ ∃ link ∈ pending, link.name = other)
    {name other : String} (member : name ∈ result) (linked : model.LinksTo links name other) :
    other ∈ result := by
  -- Whatever is linked from the list so far is listed or still pending.
  induction explored with
  | done => simpa using closed name member other linked
  | @known link rest listed result listedAlready _ ih =>
    refine ih ?_ member
    intro name member other linked
    rcases closed name member other linked with before | ⟨pending, awaited, rfl⟩
    · exact .inl before
    · rcases List.mem_cons.mp awaited with rfl | later
      · exact .inl listedAlready
      · exact .inr ⟨pending, later, rfl⟩
  | @fresh link rest listed result declaration _ found _ ih =>
    refine ih ?_ member
    intro name member other linked
    rcases List.mem_append.mp member with before | last
    · rcases closed name before other linked with present | ⟨pending, awaited, rfl⟩
      · exact .inl (List.mem_append_left _ present)
      · rcases List.mem_cons.mp awaited with rfl | later
        · exact .inl (by simp)
        · exact .inr ⟨pending, List.mem_append_right _ later, rfl⟩
    · cases List.mem_singleton.mp last
      obtain ⟨again, same, next, listedNext, rfl⟩ := linked
      cases found.symm.trans same
      exact .inr ⟨next, List.mem_append_left _ listedNext, rfl⟩

/-! ## Order -/

/-- Every element of a list is a start, or comes after one that links to it. -/
def Led (model : Model) (links : String → ElementDeclaration → List Link) (starts : List String)
    (listed : List String) : Prop :=
  ∀ other ∈ listed, other ∈ starts ∨
    ∃ name, model.LinksTo links name other ∧ listed.idxOf name < listed.idxOf other

theorem Led.concat {starts listed : List String} {last : String}
    (led : model.Led links starts listed) (unlisted : last ∉ listed)
    (linked : last ∈ starts ∨ ∃ name ∈ listed, model.LinksTo links name last) :
    model.Led links starts (listed ++ [last]) := by
  intro other member
  rcases List.mem_append.mp member with before | new
  · rcases led other before with start | ⟨name, links, earlier⟩
    · exact .inl start
    · have listedName : name ∈ listed :=
        List.idxOf_lt_length_iff.mp (earlier.trans_le List.idxOf_le_length)
      refine .inr ⟨name, links, ?_⟩
      rwa [List.idxOf_append_of_mem listedName, List.idxOf_append_of_mem before]
  · cases List.mem_singleton.mp new
    rcases linked with start | ⟨name, listedName, links⟩
    · exact .inl start
    · refine .inr ⟨name, links, ?_⟩
      rw [List.idxOf_append_of_mem listedName, List.idxOf_append_of_notMem unlisted]
      exact (List.idxOf_lt_length_iff.mpr listedName).trans_le (Nat.le_add_right _ _)

theorem Explored.led {starts : List String} {pending : List Link} {listed result : List String}
    (explored : Explored model links pending listed result)
    (led : model.Led links starts listed)
    (linked : ∀ link ∈ pending,
      link.name ∈ starts ∨ ∃ name ∈ listed, model.LinksTo links name link.name) :
    model.Led links starts result := by
  induction explored with
  | done => exact led
  | known _ _ ih => exact ih led fun link later => linked link (List.mem_cons_of_mem _ later)
  | @fresh link rest listed result declaration unlisted found _ ih =>
    refine ih (led.concat unlisted (linked link List.mem_cons_self)) ?_
    intro next pending
    rcases List.mem_append.mp pending with below | later
    · exact .inr ⟨link.name, by simp, declaration, found, next, below, rfl⟩
    · rcases linked next (List.mem_cons_of_mem _ later) with start | ⟨name, before, links⟩
      · exact .inl start
      · exact .inr ⟨name, List.mem_append_left _ before, links⟩

theorem Led.reachable {starts listed : List String} (led : model.Led links starts listed)
    {other : String} (member : other ∈ listed) :
    ∃ start ∈ starts, Relation.ReflTransGen (model.LinksTo links) start other := by
  -- The element that leads to another one stands before it.
  induction position : listed.idxOf other using Nat.strong_induction_on generalizing other with
  | _ position ih =>
    subst position
    rcases led other member with start | ⟨name, links, earlier⟩
    · exact ⟨other, start, .refl⟩
    · have listedName : name ∈ listed :=
        List.idxOf_lt_length_iff.mp (earlier.trans_le List.idxOf_le_length)
      obtain ⟨start, first, reached⟩ := ih _ earlier listedName rfl
      exact ⟨start, first, reached.tail links⟩

/-! ## Whole explorations -/

/-- An exploration ends well when everything that can be reached is declared. -/
theorem exists_explore_eq_ok {pending : List Link} (listed : List String)
    (resolved : ∀ link ∈ pending, ∀ other,
      Relation.ReflTransGen (model.LinksTo links) link.name other →
        (model.declaration? other).isSome) :
    ∃ result, model.explore links pending listed = .ok result := by
  induction pending, listed using explore.induct model links with
  | case1 listed => exact ⟨listed, by rw [explore]⟩
  | case2 listed link rest member ih =>
    rw [explore_of_listed member]
    exact ih fun later pending => resolved later (List.mem_cons_of_mem _ pending)
  | case3 listed link rest unlisted unknown =>
    have known := resolved link List.mem_cons_self link.name .refl
    rw [unknown] at known
    cases known
  | case4 listed link rest unlisted declaration found ih =>
    rw [explore_of_found unlisted found]
    apply ih
    intro next pending other reached
    rcases List.mem_append.mp pending with below | later
    · have linked : model.LinksTo links link.name next.name :=
        ⟨declaration, found, next, below, rfl⟩
      exact resolved link List.mem_cons_self other (.head linked reached)
    · exact resolved next (List.mem_cons_of_mem _ later) other reached

theorem Explored.mem_iff {start : Link} {result : List String}
    (explored : Explored model links [start] [] result) {other : String} :
    other ∈ result ↔ Relation.ReflTransGen (model.LinksTo links) start.name other := by
  constructor
  · intro member
    have led : model.Led links [start.name] result := explored.led (by simp [Led]) (by simp)
    obtain ⟨first, same, reached⟩ := led.reachable member
    exact List.mem_singleton.mp same ▸ reached
  · intro reached
    induction reached with
    | refl => exact explored.subset.2 start List.mem_cons_self
    | tail _ linked ih => exact explored.closed (by simp) ih linked

end AnnotationMetadata.Model

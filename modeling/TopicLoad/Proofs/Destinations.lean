import TopicLoad.Engine.Settings
import TopicLoad.Proofs.UrlEndings
import TopicLoad.Publish.Endpoint
import TopicLoad.Publish.Request

/-! Which destinations share an address. The names of a project and of a topic are put into an address as they
are, with a segment `topics` between them; if a name has such a segment, too, the address does not tell where
the project ends and the topic begins. Plain names leave no doubt, and not in the URL of a request either. -/
namespace TopicLoad

namespace Engine.Destination

def segments (name : String) : List (List Char) := name.toList.splitOn '/'

/-- The segment that sets the topic off from the project. -/
def divider : List Char := "topics".toList

def path (d : Destination) : List (List Char) := segments d.project ++ divider :: segments d.topic

/-- The other destination has the same path, but divides it at a later place. -/
def DividedLater (d d' : Destination) : Prop :=
  ∃ between, segments d'.project = segments d.project ++ divider :: between ∧
    segments d.topic = between ++ divider :: segments d'.topic

/-- The path can be divided at one place only, as there has to be something before it and after it. -/
def Clear (d : Destination) : Prop :=
  divider ∉ (segments d.project).tail ∧ divider ∉ (segments d.topic).dropLast

/-- The names consist of characters that stand for themselves in a URL, and the project does not stand for
another place. -/
structure Plain (d : Destination) : Prop where
  project : Url.isKept d.project.toList
  topic : d.topic.toList.all Url.isPlain

/-- The destination of a configuration that is valid. -/
def Accepted (d : Destination) : Prop :=
  ∃ c s, Settings.ofConfig c = .ok s ∧ d = ⟨s.project, s.topic⟩

variable {d d' : Destination}

theorem segments_ne_nil (name : String) : segments name ≠ [] := List.splitOn_ne_nil _ _

theorem splitOn_injective : Function.Injective fun cs : List Char => cs.splitOn '/' :=
  Function.LeftInverse.injective (g := ['/'].intercalate) fun _ => List.intercalate_splitOn '/'

theorem segments_injective : Function.Injective segments :=
  splitOn_injective.comp fun _ _ h => String.toList_injective h

theorem segments_of_plain {name : String} (h : name.toList.all Url.isPlain) :
    segments name = [name.toList] := by
  refine List.splitOn_eq_singleton fun hslash => ?_
  exact absurd (List.all_eq_true.mp h '/' hslash) (by decide)

/-- Rows with a divider are the same if they are divided at the same place, or if one has another divider
where the other is divided. -/
theorem divided_eq_iff {α : Type} {a : α} {xs ys xs' ys' : List α} :
    xs ++ a :: ys = xs' ++ a :: ys' ↔ (xs = xs' ∧ ys = ys') ∨
      (∃ zs, xs' = xs ++ a :: zs ∧ ys = zs ++ a :: ys') ∨
      ∃ zs, xs = xs' ++ a :: zs ∧ ys' = zs ++ a :: ys := by
  constructor
  · intro h
    rcases List.append_eq_append_iff.mp h with ⟨as, hxs, hys⟩ | ⟨as, hxs, hys⟩
    · cases as with
      | nil => exact .inl ⟨by simpa using hxs.symm, by simpa using hys⟩
      | cons b zs =>
        obtain ⟨rfl, hrest⟩ := List.cons.inj hys
        exact .inr (.inl ⟨zs, hxs, hrest⟩)
    · cases as with
      | nil => exact .inl ⟨by simpa using hxs, by simpa using hys.symm⟩
      | cons b zs =>
        obtain ⟨rfl, hrest⟩ := List.cons.inj hys
        exact .inr (.inr ⟨zs, hxs, hrest⟩)
  · rintro (⟨rfl, rfl⟩ | ⟨zs, rfl, rfl⟩ | ⟨zs, rfl, rfl⟩) <;> simp

theorem path_eq_iff : d.path = d'.path ↔ d = d' ∨ d.DividedLater d' ∨ d'.DividedLater d := by
  have hsame : segments d.project = segments d'.project ∧ segments d.topic = segments d'.topic ↔ d = d' := by
    rw [segments_injective.eq_iff, segments_injective.eq_iff]
    cases d
    cases d'
    rw [mk.injEq]
  rw [path, path, divided_eq_iff, hsame]
  rfl

theorem DividedLater.divider_mem (h : d.DividedLater d') :
    divider ∈ (segments d'.project).tail ∧ divider ∈ (segments d.topic).dropLast := by
  obtain ⟨between, hproject, htopic⟩ := h
  rw [hproject, htopic, List.tail_append_of_ne_nil (segments_ne_nil _),
    List.dropLast_append_of_ne_nil (List.cons_ne_nil _ _),
    List.dropLast_cons_of_ne_nil (segments_ne_nil _)]
  simp

theorem Clear.eq_of_path_eq (h : d.Clear) (hpath : d.path = d'.path) : d = d' := by
  rcases path_eq_iff.mp hpath with heq | hlater | hlater
  · exact heq
  · exact absurd hlater.divider_mem.2 h.2
  · exact absurd hlater.divider_mem.1 h.1

theorem Plain.clear (h : d.Plain) : d.Clear := by
  rw [Clear, segments_of_plain (Url.isKept_iff.mp h.project).1, segments_of_plain h.topic]
  simp

theorem accepted_iff : d.Accepted ↔ d.project ≠ "" ∧ d.topic ≠ "" := by
  constructor
  · rintro ⟨c, s, hs, rfl⟩
    simp only [Settings.ofConfig, bind, Except.bind] at hs
    split at hs
    · cases hs
    · next project hproject =>
      split at hs
      · cases hs
      · next topic htopic =>
        cases hs
        exact ⟨Settings.required_ne_empty hproject, Settings.required_ne_empty htopic⟩
  · rintro ⟨hproject, htopic⟩
    let c : Script.Config := { project := some d.project, topic := some d.topic }
    refine ⟨c, ⟨none, d.project, d.topic, false⟩, ?_, rfl⟩
    simp only [Settings.ofConfig, Settings.required, c, hproject, htopic, if_false]
    rfl

end Engine.Destination

namespace Publish

open Engine

variable {e : Endpoint} {d d' : Destination}

namespace Endpoint

theorem address_toList (e : Endpoint) (d : Destination) : (e.address d).toList =
    e.base.toList ++ "/v1/projects/".toList ++
      (d.project.toList ++ '/' :: (Destination.divider ++ '/' :: d.topic.toList)) ++ ":publish".toList := by
  have haddress : e.address d =
      e.base ++ "/v1/projects/" ++ d.project ++ "/topics/" ++ d.topic ++ ":publish" := rfl
  have hdivider : "/topics/".toList = '/' :: (Destination.divider ++ ['/']) := rfl
  simp only [haddress, String.toList_append, hdivider, List.append_assoc, List.cons_append, List.nil_append]

/-- An address tells the path of a destination and no more. -/
theorem address_eq_iff_path : e.address d = e.address d' ↔ d.path = d'.path := by
  have hpath (d : Destination) :
      (d.project.toList ++ '/' :: (Destination.divider ++ '/' :: d.topic.toList)).splitOn '/' = d.path := by
    rw [List.splitOn_append_cons_self, List.splitOn_append_cons_self_of_not_mem (by decide)]
    rfl
  rw [← String.toList_inj, address_toList, address_toList, List.append_cancel_right_eq,
    List.append_cancel_left_eq, ← hpath, ← hpath]
  exact Destination.splitOn_injective.eq_iff.symm

def ending (h : d.Plain) : Url.Ending where
  segments := ["projects".toList, d.project.toList, Destination.divider, d.topic.toList ++ ":publish".toList]
  ne_nil := List.cons_ne_nil _ _
  kept := by
    have htopic : Url.isKept (d.topic.toList ++ ":publish".toList) := by
      refine Url.isKept_of_colon ?_ (List.mem_append_right _ List.mem_cons_self)
      rw [List.all_append, h.topic]
      decide
    simp only [List.forall_mem_cons]
    exact ⟨by decide, h.project, by decide, htopic, fun _ hs => nomatch hs⟩

theorem address_eq_ending (e : Endpoint) (h : d.Plain) :
    e.address d = String.ofList (e.base.toList ++ ((ending h).push "v1".toList (by decide)).text) := by
  rw [← String.toList_inj, address_toList, String.toList_ofList, Url.Ending.text_push]
  simp [Url.Ending.text, ending]

theorem eq_of_url_eq (h : d.Plain) (h' : d'.Plain) {u : Url} (hu : Url.ofText (e.address d) = .ok u)
    (hu' : Url.ofText (e.address d') = .ok u) : d = d' := by
  rw [address_eq_ending e h] at hu
  rw [address_eq_ending e h'] at hu'
  have htext : (ending h).text = (ending h').text :=
    Url.distinguishes_ofText e.base.toList (by decide) (by decide) hu hu'
  have haddress : e.address d = e.address d' := by
    rw [address_eq_ending e h, address_eq_ending e h', Url.Ending.text_push, Url.Ending.text_push, htext]
  exact h.clear.eq_of_path_eq (address_eq_iff_path.mp haddress)

end Endpoint

/-- Destinations are accepted if their names are not empty. Two of them have the same address exactly if they
are the same, or if one divides the path of the other at a later segment `topics`. So a destination whose path
can be divided at one place only does not share its address, and requests for plain destinations go to
different URLs. -/
theorem address_shared_iff_divided (e : Endpoint) (d d' : Destination) (b b' : Batching) :
    (d.Accepted ↔ d.project ≠ "" ∧ d.topic ≠ "") ∧
    ((e.handle d b).address = (e.handle d' b').address ↔
      d = d' ∨ d.DividedLater d' ∨ d'.DividedLater d) ∧
    (d.Clear → (e.handle d b).address = (e.handle d' b').address → d = d') ∧
    (d.Plain → d'.Plain → ∀ token token' m m' r r',
      Request.ofMessage (e.handle d b).address token m = .ok r →
      Request.ofMessage (e.handle d' b').address token' m' = .ok r' → r.url = r'.url → d = d') := by
  refine ⟨Destination.accepted_iff, ?_, fun hclear haddress => ?_,
    fun hd hd' token token' m m' r r' hr hr' hurl => ?_⟩
  · exact Endpoint.address_eq_iff_path.trans Destination.path_eq_iff
  · exact hclear.eq_of_path_eq (Endpoint.address_eq_iff_path.mp haddress)
  · have hu := (Request.url_and_body hr).1
    rw [hurl] at hu
    exact Endpoint.eq_of_url_eq hd hd' hu (Request.url_and_body hr').1

/-- With the slashes in them percent-encoded, names that share an address have addresses and URLs of their
own. -/
theorem encoded_slashes_keep_apart :
    let e : Endpoint := .ofText "http://localhost:8085/" none
    let d : Destination := ⟨"a%2Ftopics%2Fb", "c"⟩
    let d' : Destination := ⟨"a", "b%2Ftopics%2Fc"⟩
    d.Accepted ∧ d.Clear ∧ d.Plain ∧ d'.Plain ∧ (e.handle d {}).address ≠ (e.handle d' {}).address ∧
    ∀ m, ∃ r r', Request.ofMessage (e.handle d {}).address none m = .ok r ∧
      Request.ofMessage (e.handle d' {}).address none m = .ok r' ∧ r.url ≠ r'.url := by
  intro e d d'
  have hd : d.Plain := ⟨by decide, by decide⟩
  have hd' : d'.Plain := ⟨by decide, by decide⟩
  have hne : d ≠ d' := by decide
  obtain ⟨haccepted, -, haddress, hurl⟩ := address_shared_iff_divided e d d' {} {}
  have hrequest (place : Destination) (path : String) (m : Outgoing)
      (h : Url.ofText (e.handle place {}).address =
        .ok { scheme := "http", host := some (.name "localhost"), port := some 8085, path := path }) :
      ∃ r, Request.ofMessage (e.handle place {}).address none m = .ok r := by
    rw [Request.ofMessage, h]
    exact ⟨_, rfl⟩
  refine ⟨haccepted.mpr ⟨by decide, by decide⟩, hd.clear, hd, hd', fun h => hne (haddress hd.clear h),
    fun m => ?_⟩
  obtain ⟨r, hr⟩ := hrequest d "/v1/projects/a%2Ftopics%2Fb/topics/c:publish" m (by decide +kernel)
  obtain ⟨r', hr'⟩ := hrequest d' "/v1/projects/a/topics/b%2Ftopics%2Fc:publish" m (by decide +kernel)
  exact ⟨r, r', hr, hr', fun h => hne (hurl hd hd' none none m m r r' hr hr' h)⟩

/-- A segment `topics` within a name makes two destinations that are accepted share an address. -/
theorem separators_confuse_destinations :
    ¬ ∀ (e : Endpoint) (d d' : Destination) (b b' : Batching), d.Accepted → d'.Accepted →
      (e.handle d b).address = (e.handle d' b').address → d = d' := by
  intro h
  have hne : (⟨"a/topics/b", "c"⟩ : Destination) ≠ ⟨"a", "b/topics/c"⟩ := by decide
  refine hne (h (.ofText "http://localhost:8085" none) _ _ {} {} ?_ ?_ ?_)
  · exact Destination.accepted_iff.mpr ⟨by decide, by decide⟩
  · exact Destination.accepted_iff.mpr ⟨by decide, by decide⟩
  · decide

end Publish
end TopicLoad

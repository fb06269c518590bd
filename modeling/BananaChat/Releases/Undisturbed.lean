import Mathlib.Data.Finset.Max
import BananaChat.Foundation.Rows
import BananaChat.Releases.Tags

namespace BananaChat.Releases

open Foundation List Source Tag

/-!
# Tags of others beside a signed release

The tags above the highest release that verifies are tried before it.
-/

def Source.Signs (source : Source) (tag : Tag) (sha : Line) : Prop :=
  source.private_ /\ isRelease tag /\ tag.object.peel = some sha /\ ∃ id body,
    ∃ target, tag.object = .tag id (some body) target /\ "tag ".toList ++ tag.name ∈ splitLines (header body) /\
      "object ".toList ++ sha ∈ splitLines (header body) /\ "type commit".toList ∈ splitLines (header body) /\
      sshSignedTag body /\ source.verifies body

def Source.Unsigned (source : Source) (tag : Tag) : Prop := ∀ sha, ¬ source.Signs tag sha

def Object.readable (object : Object) : Bool :=
  object.peel.isSome && match object with
    | .tag _ none _ => false
    | _ => true

def above (tags : List Tag) (tag : Tag) : List Tag := (releaseTags tags).filter (rank tag < rank ·)

structure Highest (source : Source) (tags : List Tag) (tag : Tag) (sha : Line) : Prop where
  mem : tag ∈ tags
  signs : source.Signs tag sha
  unsigned : ∀ other ∈ tags, rank tag < rank other -> source.Unsigned other

def Stops (tags : List Tag) (tag : Tag) : Prop :=
  (∃ other ∈ above tags tag, other.object.readable = false) \/ maxReleaseCandidates <= (above tags tag).length

variable {tag : Tag} {tags added base : List Tag} {sha : Line} {source : Source}

theorem mem_above {other : Tag} :
  other ∈ above tags tag ↔ other ∈ tags /\ isRelease other /\ rank tag < rank other := by
  rw [above, mem_filter, releaseTags, mem_descending, mem_filter, decide_eq_true_eq, and_assoc]

theorem length_above (tags : List Tag) (tag : Tag) :
  (above tags tag).length = tags.countP (fun other => decide (rank tag < rank other) && isRelease other) := by
  have sorted : (releaseTags tags).Perm (tags.filter isRelease) := perm_insertionSort _ _
  rw [above, <- countP_eq_length_filter, sorted.countP_eq, countP_filter]

theorem verifyRelease_verified (peels : tag.object.peel = some sha) (release : isRelease tag) :
  source.verifyRelease tag.name sha tag.object = .verified ↔ source.Signs tag sha := by
  constructor
  · intro verified
    cases isObject : tag.object with
    | commit id =>
      rw [isObject] at verified
      simp only [verifyRelease] at verified
      split at verified <;> cases verified
    | tree id | blob id =>
      rw [isObject] at peels
      cases peels
    | tag id body target =>
      rw [isObject] at verified
      simp only [verifyRelease] at verified
      by_cases exposed : source.private_ = false
      · rw [if_pos exposed] at verified
        cases verified
      · rw [if_neg exposed] at verified
        cases body with
        | none => cases verified
        | some body =>
          dsimp only at verified
          split at verified
          · cases verified
          · rename_i named
            split at verified
            · cases verified
            · rename_i signed
              split at verified
              · rename_i verifies
                rcases not_or.mp named with ⟨ownName, rest⟩
                rcases not_or.mp rest with ⟨ownCommit, isCommit⟩
                exact ⟨Bool.of_not_eq_false exposed, release, peels, id, body, target, isObject, not_not.mp ownName,
                  not_not.mp ownCommit, not_not.mp isCommit, Bool.of_not_eq_false signed, verifies⟩
              · cases verified
  · rintro ⟨isPrivate, _, _, _, body, _, isObject, ownName, ownCommit, isCommit, signed, verifies⟩
    have named : ¬ ("tag ".toList ++ tag.name ∉ splitLines (header body) \/ "object ".toList ++ sha ∉ splitLines (header body) \/
        "type commit".toList ∉ splitLines (header body)) := by
      rintro (apart | apart | apart)
      · exact apart ownName
      · exact apart ownCommit
      · exact apart isCommit
    rw [isObject]
    simp only [verifyRelease]
    rw [isPrivate, signed, verifies, if_neg Bool.false_ne_true.symm, if_neg named, if_neg Bool.false_ne_true.symm, if_pos rfl]

theorem verifyRelease_unsigned (isPrivate : source.private_) (peels : tag.object.peel = some sha)
  (release : isRelease tag) (unsigned : source.Unsigned tag) :
  source.verifyRelease tag.name sha tag.object = if tag.object.readable = true then .refused else .stopped := by
  have apart : source.verifyRelease tag.name sha tag.object ≠ .verified :=
    fun verified => unsigned sha ((verifyRelease_verified peels release).mp verified)
  cases isObject : tag.object with
  | commit id =>
    simp only [verifyRelease]
    rw [isPrivate]
    rfl
  | tree id | blob id =>
    rw [isObject] at peels
    cases peels
  | tag id body target =>
    rw [isObject] at apart peels
    simp only [verifyRelease] at apart ⊢
    unfold Object.readable
    rw [isPrivate] at apart
    rw [isPrivate, peels]
    cases body with
    | none => rfl
    | some body =>
      dsimp only at apart ⊢
      rw [if_neg Bool.false_ne_true.symm] at apart ⊢
      split
      · rfl
      · split
        · rfl
        · split
          · rename_i named signed verifies
            rw [if_neg named, if_neg signed, if_pos verifies] at apart
            exact absurd rfl apart
          · rfl

section Trying

variable {source : Source} {tags : List Tag} (distinct : (tags.map Tag.name).Nodup)

include distinct

theorem find_named (mem : tag ∈ tags) : tags.find? (·.name = tag.name) = some tag := Rows.find_of_key distinct mem

theorem tryReleases_skip {tried : List Tag} (members : ∀ tag ∈ tried, tag ∈ tags /\ isRelease tag)
  (unsigned : ∀ tag ∈ tried, source.Unsigned tag) (isPrivate : source.private_)
  (readable : ∀ tag ∈ tried, tag.object.readable) (skipped : List Line) (fetched : List Tag) (rest : List Line) :
  source.tryReleases tags skipped fetched (tried.map name ++ rest) =
    source.tryReleases tags (skipped ++ tried.map name) (fetched ++ tried) rest := by
  induction tried generalizing skipped fetched with
  | nil => rw [map_nil, nil_append, append_nil, append_nil]
  | cons tag tried ih =>
    have isReadable := readable tag mem_cons_self
    have peels : ∃ sha, tag.object.peel = some sha :=
      Option.isSome_iff_exists.mp (Bool.and_eq_true_iff.mp isReadable).1
    rcases peels with ⟨_, isSha⟩
    rcases members tag mem_cons_self with ⟨mem, release⟩
    have verdict := verifyRelease_unsigned isPrivate isSha release (unsigned tag mem_cons_self)
    rw [if_pos isReadable] at verdict
    rw [map_cons, cons_append, tryReleases, find_named distinct mem]
    dsimp only
    rw [isSha]
    dsimp only
    rw [verdict]
    rw [ih (fun other isOther => members other (mem_cons_of_mem tag isOther))
      (fun other isOther => unsigned other (mem_cons_of_mem tag isOther))
      (fun other isOther => readable other (mem_cons_of_mem tag isOther)), append_assoc, append_assoc]
    rfl

theorem tryReleases_stop {tried : List Tag} (members : ∀ tag ∈ tried, tag ∈ tags /\ isRelease tag)
  (unsigned : ∀ tag ∈ tried, source.Unsigned tag) (isPrivate : source.private_) (skipped : List Line)
  (fetched : List Tag) (rest : List Line) (ends : (∃ tag ∈ tried, tag.object.readable = false) \/ rest = []) :
  source.tryReleases tags skipped fetched (tried.map name ++ rest) = none := by
  induction tried generalizing skipped fetched with
  | nil =>
    rcases ends with ⟨tag, clash, _⟩ | nothing
    · cases clash
    · rw [nothing]
      rfl
  | cons tag tried ih =>
    rcases members tag (.head _) with ⟨mem, release⟩
    rw [map_cons, cons_append, tryReleases, find_named distinct mem]
    dsimp only
    cases isSha : tag.object.peel with
    | none => rfl
    | some sha =>
      have verdict := verifyRelease_unsigned isPrivate isSha release (unsigned tag mem_cons_self)
      dsimp only
      rw [verdict]
      by_cases isReadable : tag.object.readable
      · rw [if_pos isReadable]
        refine ih (fun other isOther => members other (mem_cons_of_mem tag isOther))
          (fun other isOther => unsigned other (mem_cons_of_mem tag isOther)) _ _ ?_
        refine ends.imp_left ?_
        rintro ⟨other, isOther, unreadable⟩
        rcases mem_cons.mp isOther with same | later
        · rw [same, isReadable] at unreadable
          cases unreadable
        · exact ⟨other, later, unreadable⟩
      · rw [if_neg isReadable]

end Trying

section Verified

variable {source : Source} {tags : List Tag} (distinct : (tags.map Tag.name).Nodup) {tag : Tag} {sha : Line}
  (highest : Highest source tags tag sha)

include distinct highest

theorem releaseTags_split : ∃ below, releaseTags tags = above tags tag ++ tag :: below := by
  have mem : tag ∈ releaseTags tags := mem_descending.mpr (mem_filter.mpr ⟨highest.mem, highest.signs.2.1⟩)
  refine eq_above_append (descending_pairwise rank _) mem ?_
  intro other isOther same
  have isTag := (mem_filter.mp (mem_descending.mp isOther)).1
  have sameName : other.name = tag.name := congrArg (fun key => (ofLex key).2) same
  exact Rows.eq_of_key distinct isTag highest.mem sameName

omit distinct in
theorem above_members : ∀ other ∈ above tags tag, (other ∈ tags /\ isRelease other) /\ source.Unsigned other := by
  intro other isAbove
  rcases mem_above.mp isAbove with ⟨mem, release, higher⟩
  exact ⟨⟨mem, release⟩, highest.unsigned other mem higher⟩

theorem verifiedRelease_found (reached : ¬ Stops tags tag) :
  source.verifiedRelease tags = some ⟨tag.name, sha, (above tags tag).map name, above tags tag ++ [tag]⟩ := by
  rcases not_or.mp reached with ⟨readable, few⟩
  rcases releaseTags_split distinct highest with ⟨below, isSplit⟩
  have members := above_members highest
  have isReadable (other : Tag) (isAbove : other ∈ above tags tag) : other.object.readable :=
    Bool.of_not_eq_false (fun unreadable => readable ⟨other, isAbove, unreadable⟩)
  have room : ((above tags tag).map name).length + 1 <= maxReleaseCandidates := by
    rw [length_map]
    exact Nat.lt_of_not_le few
  have taken : ((releaseTags tags).map name).take maxReleaseCandidates = (above tags tag).map name ++
      tag.name :: (below.map name).take (maxReleaseCandidates - (((above tags tag).map name).length + 1)) := by
    rw [isSplit, map_append, map_cons, take_append, take_of_length_le (Nat.le_of_succ_le room)]
    obtain ⟨more, isMore⟩ := Nat.exists_eq_add_of_le room
    rw [isMore, Nat.add_sub_cancel_left, show ∀ length : ℕ, length + 1 + more - length = more + 1 by omega, take_succ_cons]
  rw [verifiedRelease, taken, tryReleases_skip distinct (fun other isAbove => (members other isAbove).1)
    (fun other isAbove => (members other isAbove).2) highest.signs.1 isReadable, tryReleases, find_named distinct highest.mem]
  dsimp only
  rw [highest.signs.2.2.1]
  dsimp only
  rw [(verifyRelease_verified highest.signs.2.2.1 highest.signs.2.1).mpr highest.signs]
  rfl

theorem verifiedRelease_stops (stops : Stops tags tag) : source.verifiedRelease tags = none := by
  rcases releaseTags_split distinct highest with ⟨below, isSplit⟩
  have members := above_members highest
  by_cases few : maxReleaseCandidates <= (above tags tag).length
  · have taken : ((releaseTags tags).map name).take maxReleaseCandidates =
        ((above tags tag).take maxReleaseCandidates).map name ++ [] := by
      rw [isSplit, map_append, take_append_of_le_length (by rw [length_map]; exact few), map_take, append_nil]
    rw [verifiedRelease, taken]
    exact tryReleases_stop distinct (fun other isTaken => (members other (mem_of_mem_take isTaken)).1)
      (fun other isTaken => (members other (mem_of_mem_take isTaken)).2) highest.signs.1 _ _ _ (.inr rfl)
  · have unreadable := stops.resolve_right few
    have taken : ((releaseTags tags).map name).take maxReleaseCandidates = (above tags tag).map name ++
        ((tag :: below).map name).take (maxReleaseCandidates - ((above tags tag).map name).length) := by
      rw [isSplit, map_append, take_append, take_of_length_le (by rw [length_map]; omega)]
    rw [verifiedRelease, taken]
    exact tryReleases_stop distinct (fun other isAbove => (members other isAbove).1)
      (fun other isAbove => (members other isAbove).2) highest.signs.1 _ _ _ (.inl unreadable)

end Verified

theorem exists_highest (mem : tag ∈ tags) (signs : source.Signs tag sha) : ∃ tag sha, Highest source tags tag sha := by
  classical
  let signed := tags.toFinset.filter (fun tag => ∃ sha, source.Signs tag sha)
  have nonempty : signed.Nonempty := ⟨tag, Finset.mem_filter.mpr ⟨mem_toFinset.mpr mem, sha, signs⟩⟩
  rcases Finset.exists_max_image signed rank nonempty with ⟨best, isBest, most⟩
  rcases Finset.mem_filter.mp isBest with ⟨isTag, bestSha, bestSigns⟩
  refine ⟨best, bestSha, mem_toFinset.mp isTag, bestSigns, ?_⟩
  intro other isOther higher otherSha otherSigns
  have most := most other (Finset.mem_filter.mpr ⟨mem_toFinset.mpr isOther, otherSha, otherSigns⟩)
  exact absurd higher (not_lt_of_ge most)

theorem verifiedRelease_unsigned (distinct : (tags.map name).Nodup) (isPrivate : source.private_)
  (unsigned : ∀ tag ∈ tags, source.Unsigned tag) : source.verifiedRelease tags = none := by
  have members (tag : Tag) (isTaken : tag ∈ (releaseTags tags).take maxReleaseCandidates) : tag ∈ tags /\ isRelease tag :=
    mem_filter.mp (mem_descending.mp (mem_of_mem_take isTaken))
  have none := tryReleases_stop distinct members (fun tag isTaken => unsigned tag (members tag isTaken).1) isPrivate [] [] []
    (.inr rfl)
  rw [append_nil, map_take] at none
  exact none

theorem tryReleases_exposed (exposed : source.private_ = false) (tags : List Tag) (skipped : List Line)
  (fetched : List Tag) (releases : List Line) : source.tryReleases tags skipped fetched releases = none := by
  cases releases with
  | nil => rfl
  | cons release rest =>
    rw [tryReleases]
    split
    · rfl
    · rename_i tag _
      split
      · rfl
      · rename_i sha _
        have stops : source.verifyRelease release sha tag.object = .stopped := by
          cases tag.object <;> simp only [verifyRelease, exposed, if_true]
        rw [stops]

theorem verifiedRelease_exposed (exposed : source.private_ = false) (tags : List Tag) :
    source.verifiedRelease tags = none := tryReleases_exposed exposed tags [] [] _

theorem Highest.append (highest : Highest source base tag sha)
  (unsigned : ∀ other ∈ added, source.Unsigned other) : Highest source (base ++ added) tag sha := by
  refine ⟨mem_append_left _ highest.mem, highest.signs, ?_⟩
  intro other mem higher
  rcases mem_append.mp mem with old | new
  · exact highest.unsigned other old higher
  · exact unsigned other new

theorem above_append {other : Tag} (isAbove : other ∈ above base tag) : other ∈ above (base ++ added) tag := by
  rcases mem_above.mp isAbove with ⟨mem, release, higher⟩
  exact mem_above.mpr ⟨mem_append_left _ mem, release, higher⟩

theorem Stops.append (stops : Stops base tag) : Stops (base ++ added) tag := by
  rcases stops with ⟨other, isAbove, unreadable⟩ | many
  · exact .inl ⟨other, above_append isAbove, unreadable⟩
  · refine .inr (many.trans ?_)
    rw [length_above, length_above, countP_append]
    exact Nat.le_add_right _ _

theorem knows_append (knows : source.knows (above base tag ++ [tag]) sha) :
  source.knows (above (base ++ added) tag ++ [tag]) sha := by
  unfold Source.knows at knows ⊢
  rcases Bool.or_eq_true_iff.mp knows with cached | fetched
  · rw [cached]
    rfl
  · rcases any_eq_true.mp fetched with ⟨other, mem, brings⟩
    refine Bool.or_eq_true_iff.mpr (.inr (any_eq_true.mpr ⟨other, ?_, brings⟩))
    rcases mem_append.mp mem with isAbove | isTag
    · exact mem_append_left _ (above_append isAbove)
    · exact mem_append_right _ isTag

theorem knows_found (peels : tag.object.peel = some sha) : source.knows (above tags tag ++ [tag]) sha := by
  refine Bool.or_eq_true_iff.mpr (.inr (any_eq_true.mpr ⟨tag, mem_concat_self, ?_⟩))
  rw [peels, Option.any_some, decide_eq_true rfl]
  rfl

section

variable (source : Source) (base added : List Tag) (tag : Tag) (sha current : Line)

def Source.Reveals : Prop :=
  current ≠ [] /\ sha ≠ current /\ source.ancestor sha current /\ source.knows (above base tag ++ [tag]) current = false /\
    source.knows (above (base ++ added) tag ++ [tag]) current

/-- When added tags change nothing: the source's own tags end the update already, or they do not with those
that were added, and these do not show the server its own revision. -/
def Source.Undisturbed : Prop :=
  Stops base tag \/ (¬ Stops (base ++ added) tag /\ ¬ source.Reveals base added tag sha current)

end

def Source.revision (source : Source) (tags : List Tag) (current : Line) : Option Line :=
  (source.resolve tags current).map Prod.fst

section

variable (distinct : (tags.map Tag.name).Nodup) (highest : Highest source tags tag sha)
include distinct highest

theorem revision_stops (stops : Stops tags tag) (current : Line) : source.revision tags current = none := by
  rw [revision, resolve, verifiedRelease_stops distinct highest stops]
  rfl

theorem revision_found (reached : ¬ Stops tags tag) (current : Line) :
  source.revision tags current = some (if current ≠ [] /\ sha ≠ current /\
    source.isAncestor (above tags tag ++ [tag]) sha current then current else sha) := by
  rw [revision, resolve, verifiedRelease_found distinct highest reached]
  dsimp only
  split <;> rfl

end

/-- The same revision is resolved with the tags of others exactly if these change nothing, and it is the current one or
the commit of the highest release that verifies. -/
theorem tags_undisturbed {source : Source} {base added : List Tag} (distinct : ((base ++ added).map Tag.name).Nodup)
  (unsigned : ∀ other ∈ added, source.Unsigned other) (current : Line) : (∀ tag sha, Highest source base tag sha ->
    (source.revision (base ++ added) current = source.revision base current ↔ source.Undisturbed base added tag sha current)) /\
  (∀ revision, source.revision (base ++ added) current = some revision ->
    revision = current \/ ∃ tag, Highest source base tag revision) := by
  have distinctBase : (base.map Tag.name).Nodup := by
    rw [map_append] at distinct
    exact distinct.of_append_left
  constructor
  · intro tag sha highest
    have both := highest.append unsigned
    by_cases stops : Stops base tag
    · rw [revision_stops distinctBase highest stops, revision_stops distinct both stops.append]
      exact ⟨fun _ => .inl stops, fun _ => rfl⟩
    · rw [revision_found distinctBase highest stops]
      by_cases disturbed : Stops (base ++ added) tag
      · rw [revision_stops distinct both disturbed]
        exact ⟨fun clash => (nomatch clash), fun undisturbed => absurd disturbed (undisturbed.resolve_left stops).1⟩
      · rw [revision_found distinct both disturbed]
        unfold Source.Undisturbed Source.Reveals Source.isAncestor
        rw [knows_found highest.signs.2.2.1, knows_found both.signs.2.2.1, Bool.true_and, Bool.true_and]
        cases known : source.knows (above base tag ++ [tag]) current with
        | true =>
          rw [knows_append known]
          exact ⟨fun _ => .inr ⟨disturbed, fun reveals => nomatch reveals.2.2.2.1⟩, fun _ => rfl⟩
        | false =>
          cases learnt : source.knows (above (base ++ added) tag ++ [tag]) current with
          | false => exact ⟨fun _ => .inr ⟨disturbed, fun reveals => nomatch reveals.2.2.2.2⟩, fun _ => rfl⟩
          | true =>
            have without : (if current ≠ [] /\ sha ≠ current /\ (false && source.ancestor sha current) then current else sha) = sha :=
              if_neg (Bool.false_ne_true ·.2.2)
            rw [without, Bool.true_and]
            by_cases contains : current ≠ [] /\ sha ≠ current /\ source.ancestor sha current
            · rw [if_pos contains]
              constructor
              · exact fun same => absurd (Option.some.inj same).symm contains.2.1
              · intro undisturbed
                exact absurd ⟨contains.1, contains.2.1, contains.2.2, rfl, rfl⟩ (undisturbed.resolve_left stops).2
            · rw [if_neg contains]
              exact ⟨fun _ => .inr ⟨disturbed, fun reveals => contains ⟨reveals.1, reveals.2.1, reveals.2.2.1⟩⟩, fun _ => rfl⟩
  · intro revision isRevision
    by_cases exposed : source.private_ = false
    · rw [Source.revision, Source.resolve, verifiedRelease_exposed exposed] at isRevision
      cases isRevision
    · have isPrivate := Bool.of_not_eq_false exposed
      by_cases signed : ∃ tag ∈ base, ∃ sha, source.Signs tag sha
      · rcases signed with ⟨tag, mem, sha, signs⟩
        rcases exists_highest mem signs with ⟨best, bestSha, highest⟩
        have both := highest.append unsigned
        by_cases stops : Stops (base ++ added) best
        · rw [revision_stops distinct both stops] at isRevision
          cases isRevision
        · rw [revision_found distinct both stops] at isRevision
          split at isRevision
          · cases isRevision
            exact .inl rfl
          · cases isRevision
            exact .inr ⟨best, highest⟩
      · have none := verifiedRelease_unsigned distinct isPrivate ?_
        · rw [Source.revision, Source.resolve, none] at isRevision
          cases isRevision
        · intro tag mem sha signs
          rcases mem_append.mp mem with old | new
          · exact signed ⟨tag, old, sha, signs⟩
          · exact unsigned tag new sha signs

def signedBody : Line := "object aa\ntype commit\ntag v1.0.0\n\n-----BEGIN SSH SIGNATURE-----\n".toList

def signer : Source := ⟨true, fun body => (body = signedBody), fun _ _ => false, fun _ => false⟩

def signedRelease : Tag := ⟨"v1.0.0".toList, .tag "dd".toList (some signedBody) (.commit "aa".toList)⟩

def fileTag : Tag := ⟨"v9.0.0".toList, .blob "bb".toList⟩

def commitTag : Tag := ⟨"v9.0.0".toList, .commit "cc".toList⟩

theorem signedRelease_highest : Highest signer [signedRelease] signedRelease "aa".toList := by
  refine ⟨mem_cons_self, ⟨rfl, by decide +kernel, rfl, _, signedBody, _, rfl, ?_⟩, ?_⟩
  · decide +kernel
  · intro _ mem higher
    rw [mem_singleton.mp mem] at higher
    exact absurd higher (lt_irrefl _)

/-- The tag on a file ends the update, although nothing but the signed release verifies. -/
theorem file_holds_back : Highest signer [signedRelease] signedRelease "aa".toList /\ signer.Unsigned fileTag /\
  signer.revision [signedRelease] "ee".toList = some "aa".toList /\
  signer.revision ([signedRelease] ++ [fileTag]) "ee".toList = none := by
  refine ⟨signedRelease_highest, ?_, by decide +kernel, by decide +kernel⟩
  rintro sha ⟨_, _, clash, _⟩
  cases clash

theorem tags_undisturbed_commit : signer.revision ([signedRelease] ++ [commitTag]) "ee".toList =
  signer.revision [signedRelease] "ee".toList := by
  have distinct : (([signedRelease] ++ [commitTag]).map Tag.name).Nodup := by decide +kernel
  have unsigned : ∀ other ∈ [commitTag], signer.Unsigned other := by
    intro other mem sha signs
    rw [mem_singleton.mp mem] at signs
    rcases signs with ⟨_, _, _, _, _, _, clash, _⟩
    cases clash
  have reached : ¬ Stops ([signedRelease] ++ [commitTag]) signedRelease := by
    unfold Stops
    decide +kernel
  have hidden : ¬ signer.Reveals [signedRelease] [commitTag] signedRelease "aa".toList "ee".toList :=
    fun reveals => Bool.false_ne_true reveals.2.2.1
  exact ((tags_undisturbed distinct unsigned "ee".toList).1 _ _ signedRelease_highest).mpr (.inr ⟨reached, hidden⟩)

end BananaChat.Releases

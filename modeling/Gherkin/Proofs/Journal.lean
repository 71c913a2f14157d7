import Gherkin.Journal
import Gherkin.Proofs.Attachment
import Gherkin.Proofs.Diagnosis
import Gherkin.Proofs.Passages

/-!
# The journal says what was read

A container or a step is named in the journal when its keyword opens it, long before
the document is put together.  Since every heading of a document comes from one keyword,
and in the order of the keywords, the journal of a document that is read still lists its
containers and steps.  What it ends with is what stands behind the last construct.
-/

namespace Gherkin

/-- The event with how loud it is. -/
def Event.leveled (event : Event) : Level × Event :=
  (event.level, event)

/-! ## The events of a document -/

def Step.opened (step : Step) : Event :=
  .openedStep step.line step.keyword step.name

namespace Container

def opened (container : Container) : Event :=
  .openedContainer container.line container.keyword container.name

/-- The container and its steps as they were opened. -/
def openings (container : Container) : List Event :=
  container.opened :: container.steps.map Step.opened

end Container

/-- The containers and the steps of the document as they were opened. -/
def Feature.openings (feature : Feature) : List Event :=
  feature.containers.flatMap Container.openings

/-- The event of a keyword on a line.  Only containers and steps have one. -/
def KeywordLine.event? (line : Nat) (opening : KeywordLine) : Option Event :=
  match opening.role with
  | .background | .scenario | .outline =>
      some (.openedContainer line opening.keyword opening.text)
  | .step _ => some (.openedStep line opening.keyword opening.text)
  | .feature | .examples => none

theorem Token.event?_eq_bind (token : Token) :
    token.event? = token.keyword?.bind fun (line, opening) => opening.event? line := by
  unfold event? keyword?
  cases token.kind <;> rfl

theorem Token.level_of_event? {token : Token} {event : Event}
    (hevent : token.event? = some event) : event.level = .trace := by
  unfold event? at hevent
  split at hevent
  · split at hevent <;> cases hevent <;> rfl
  · cases hevent

/-- The event of a heading's keyword on the heading's line. -/
def Heading.event? (heading : Heading) : Option Event :=
  heading.opening.event? heading.node.line

theorem Container.event?_heading (container : Container) :
    container.heading.event? = some container.opened := by
  unfold Heading.event? heading KeywordLine.event?
  cases container.kind <;> rfl

/-- A feature and a group of examples have no event, so the headings of a document give
the events of its containers and steps. -/
theorem Feature.filterMap_event?_headings (feature : Feature) :
    feature.headings.filterMap Heading.event? = feature.openings := by
  have hgroups (groups : List Examples) :
      (groups.map Examples.heading).filterMap Heading.event? = [] := by
    rw [List.filterMap_map]
    exact List.filterMap_eq_nil_iff.mpr fun _ _ => rfl
  have hsteps (steps : List Step) :
      (steps.map Step.heading).filterMap Heading.event? = steps.map Step.opened := by
    rw [List.filterMap_map]
    exact congrFun (List.filterMap_eq_map (f := Step.opened)) steps
  have hcontainer (container : Container) :
      container.headings.filterMap Heading.event? = container.openings := by
    rw [Container.headings, List.filterMap_cons_some container.event?_heading,
      List.filterMap_append, hsteps, hgroups, List.append_nil, Container.openings]
  rw [headings, List.filterMap_cons_none rfl, List.filterMap_flatMap, openings]
  exact List.flatMap_congr fun container _ => hcontainer container

/-- The events of the tokens of a document that is read are those of its containers and
steps. -/
theorem filterMap_event?_of_parse {config : Config} {uri document : Text}
    {feature : Feature} (hparse : parse config uri document = .ok feature) :
    (scan config.keywords document).tokens.filterMap Token.event? =
      feature.openings := by
  calc
    (scan config.keywords document).tokens.filterMap Token.event? =
      ((scan config.keywords document).tokens.filterMap Token.keyword?).filterMap
        fun (line, opening) => opening.event? line := by
      rw [List.filterMap_filterMap]
      exact List.filterMap_congr fun token _ => token.event?_eq_bind
    _ = feature.headings.filterMap Heading.event? := by
      rw [← map_opening_of_parse hparse, List.filterMap_map]
      rfl
    _ = feature.openings := feature.filterMap_event?_headings

/-! ## The events of a run -/

namespace Assembly

variable {ending : Assembly → List Event} {assembly reached final : Assembly}

/-- The tokens that are accepted leave their events in front of those of the rest. -/
theorem feedEvents_append {front : List Token}
    (hrun : assembly.feedAll front = .ok reached)
    (back : List Token) :
    feedEvents ending assembly (front ++ back) =
      front.filterMap Token.event? ++ feedEvents ending reached back := by
  induction front generalizing assembly with
  | nil => rw [Except.ok.inj hrun, List.nil_append, List.filterMap_nil, List.nil_append]
  | cons token front ih =>
      obtain ⟨next, hmove, hrun⟩ := feedAll_cons_eq_ok_iff.mp hrun
      rw [List.cons_append, feedEvents, feed_eq_accepted_iff.mpr hmove]
      dsimp only
      rw [ih hrun, ← List.append_assoc]
      congr 1
      rcases hevent : token.event? with _ | event
      · rw [List.filterMap_cons_none hevent]
        rfl
      · rw [List.filterMap_cons_some hevent]
        rfl

theorem feedEvents_of_feedAll {tokens : List Token}
    (hrun : assembly.feedAll tokens = .ok final) :
    feedEvents ending assembly tokens =
      tokens.filterMap Token.event? ++ ending final := by
  rw [← List.append_nil tokens, feedEvents_append hrun, feedEvents, List.append_nil]

/-- The token that is rejected leaves the last event. -/
theorem feedEvents_of_rejected {front back : List Token} {token : Token}
    {left : Assembly}
    {diagnostic : Diagnostic} (hfront : assembly.feedAll front = .ok reached)
    (hfed : reached.feed token = .rejected left diagnostic) :
    feedEvents ending assembly (front ++ token :: back) =
      front.filterMap Token.event? ++ [.rejected diagnostic] := by
  rw [feedEvents_append hfront, feedEvents, hfed]

theorem policy_of_feedAll {tokens : List Token}
    (hrun : assembly.feedAll tokens = .ok final) : final.policy = assembly.policy := by
  have hpolicy := hrun.symm.trans (feedAll_withPolicy hrun assembly.policy)
  rw [Except.ok.inj hpolicy]

end Assembly

/-- The accepted tokens as they are named in the journal. -/
def traces (tokens : List Token) : List (Level × Event) :=
  (tokens.filterMap Token.event?).map fun event => (.trace, event)

theorem map_leveled_filterMap_event? (tokens : List Token) :
    (tokens.filterMap Token.event?).map Event.leveled = traces tokens := by
  apply List.map_congr_left
  intro event hevent
  obtain ⟨token, -, hevent⟩ := List.mem_filterMap.mp hevent
  rw [Event.leveled, Token.level_of_event? hevent]

/-! ## The journal of a document -/

/-- What the journal of a document ends with: the tags and the comments that are lost,
and what was read. -/
def Feature.farewell (feature : Feature) (policy : TrailingComments)
    (tags comments : List Text) : List (Level × Event) :=
  (if tags = [] then [] else [(.warn, .discardedTags tags)]) ++
    (if policy = .discard ∧ comments ≠ []
      then [(.debug, .discardedComments comments.length)] else []) ++
    [(.debug, .finished feature.name feature.scenarios.length)]

theorem Assembly.map_leveled_finishEvents {assembly : Assembly} {feature : Feature}
    (hfinish : assembly.finish = .ok feature) :
    assembly.finishEvents.map Event.leveled =
      feature.farewell assembly.policy assembly.pending.tags
        assembly.pending.comments := by
  rw [finishEvents, hfinish, Feature.farewell]
  dsimp only
  rcases assembly.pending.tags with _ | ⟨tag, tags⟩ <;>
    rcases assembly.pending.comments with _ | ⟨comment, comments⟩ <;>
      cases assembly.policy <;> rfl

variable {config : Config} {uri document : Text}

theorem journal_of_parse_eq_ok {feature : Feature}
    (hparse : parse config uri document = .ok feature) :
    let trailing := (Layout.ofTokens (scan config.keywords document).tokens).trailing
    (journal config uri document).map Event.leveled =
      (.debug, .began document.utf8Length) ::
        (feature.openings.map (fun event => (.trace, event)) ++
          feature.farewell config.trailingComments
            (trailing.flatMap fun token => token.kind.tagsOf)
            (trailing.flatMap fun token => token.kind.comments)) := by
  intro trailing
  obtain ⟨hfault, final, hrun, hfinish⟩ := parse_eq_ok_iff.mp hparse
  obtain ⟨-, howns⟩ := Assembly.owns_of_feedAll hrun
  have hending := Assembly.map_leveled_finishEvents hfinish
  rw [howns.tags_eq, howns.comments_eq, Assembly.policy_of_feedAll hrun] at hending
  rw [journal, List.map_cons, Assembly.feedEvents_of_feedAll hrun, hfault,
    List.map_append,
    map_leveled_filterMap_event?, traces, filterMap_event?_of_parse hparse]
  exact congrArg (_ :: _ ++ ·) hending

theorem journal_of_rejected {front back : List Token} {token : Token}
    {reached left : Assembly} {diagnostic : Diagnostic}
    (htokens : (scan config.keywords document).tokens = front ++ token :: back)
    (hfront : (Assembly.start uri config.trailingComments).feedAll front = .ok reached)
    (hfed : reached.feed token = .rejected left diagnostic) :
    (journal config uri document).map Event.leveled =
      (.debug, .began document.utf8Length) ::
        (traces front ++ [(.debug, .rejected diagnostic)]) := by
  rw [journal, List.map_cons, htokens, Assembly.feedEvents_of_rejected hfront hfed,
    List.map_append, map_leveled_filterMap_event?]
  rfl

/-- A document that is accepted token by token and still not read has nothing to say
at its end. -/
theorem journal_of_feedAll {final : Assembly} {diagnostic : Diagnostic}
    (hrun : (Assembly.start uri config.trailingComments).feedAll
      (scan config.keywords document).tokens = .ok final)
    (hparse : parse config uri document = .error diagnostic) :
    (journal config uri document).map Event.leveled =
      (.debug, .began document.utf8Length) ::
        traces (scan config.keywords document).tokens := by
  have hending : (if (scan config.keywords document).fault?.isSome then []
      else final.finishEvents) = [] := by
    rcases hfault : (scan config.keywords document).fault? with _ | fault
    · simp only [parse, hrun, hfault] at hparse
      rw [Assembly.finishEvents, hparse]
      rfl
    · rfl
  rw [journal, List.map_cons, Assembly.feedEvents_of_feedAll hrun, hending,
    List.append_nil, map_leveled_filterMap_event?]
  rfl

/-- The journal begins with the size of the document.  If the document is read, its
containers and steps follow in their order and nothing else, then the tags behind the
last construct if there are any, the number of comments there if there are any and they
are dropped, and the name of the feature.  If it is not read, the containers and steps
of the accepted tokens follow, and what was rejected if a token was. -/
theorem journal_mirrors_parse (config : Config) (uri document : Text) :
    let tokens := (scan config.keywords document).tokens
    let start := Assembly.start uri config.trailingComments
    let trailing := (Layout.ofTokens tokens).trailing
    let entries := (journal config uri document).map Event.leveled
    match parse config uri document with
    | .ok feature =>
        let tags := trailing.flatMap fun token => token.kind.tagsOf
        let comments := trailing.flatMap fun token => token.kind.comments
        entries = (.debug, .began document.utf8Length) ::
          (feature.openings.map (fun event => (.trace, event)) ++
            ((if tags = [] then [] else [(.warn, .discardedTags tags)]) ++
              (if config.trailingComments = .discard ∧ comments ≠ []
                then [(.debug, .discardedComments comments.length)] else []) ++
              [(.debug, .finished feature.name feature.scenarios.length)]))
    | .error diagnostic =>
        (∃ front token back reached left, tokens = front ++ token :: back ∧
          start.feedAll front = .ok reached ∧
          reached.feed token = .rejected left diagnostic ∧
          entries = (.debug, .began document.utf8Length) ::
            (traces front ++ [(.debug, .rejected diagnostic)])) ∨
        ∃ final, start.feedAll tokens = .ok final ∧
          entries = (.debug, .began document.utf8Length) :: traces tokens := by
  intro tokens start trailing entries
  split
  · next feature hparse => exact journal_of_parse_eq_ok hparse
  · next diagnostic hparse =>
      rcases hrun : start.feedAll tokens with reported | final
      · obtain rfl := Except.error.inj
          ((parse_of_feedAll_eq_error hrun).symm.trans hparse)
        obtain ⟨front, token, back, reached, left, htokens, hfront, hfed⟩ :=
          Assembly.feedAll_eq_error_iff.mp hrun
        exact .inl ⟨front, token, back, reached, left, htokens, hfront, hfed,
          journal_of_rejected htokens hfront hfed⟩
      · exact .inr ⟨final, rfl, journal_of_feedAll hrun hparse⟩

example :
    (journal ⟨.english, .discard⟩ "u".toList
        "Feature: F\nScenario: S\nGiven x\n@t\n# c".toList).map Event.leveled =
      [(.debug, .began 37), (.trace, .openedContainer 2 "Scenario".toList "S".toList),
        (.trace, .openedStep 3 "Given".toList "x".toList),
        (.warn, .discardedTags ["t".toList]), (.debug, .discardedComments 1),
        (.debug, .finished "F".toList 1)] := by
  decide

end Gherkin

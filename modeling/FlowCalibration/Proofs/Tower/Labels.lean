import FlowCalibration.Proofs.Preview.Labels
import FlowCalibration.Proofs.Preview.Picture
import FlowCalibration.Proofs.Tower.Grammar
import FlowCalibration.Proofs.Tower.Replay

/-!
# Labels of sites

Every site of a plate announces its flow and its feed rate, and its label is read back from that
message.  The label waits until a move of the site leaves its place, so as long as every site has
such a move each label is drawn once, before the next message takes its place.
-/

namespace FlowCalibration

namespace Tower

open Double (number)
open NumberText (plainText)
open Course

/-! ## The label of a message -/

/-- The label of a site: its flow without a sign and its feed rate. -/
def siteLabel (settings : Settings) (site : Site) : String :=
  "F " ++ withoutSign (number site.entry.flow) ++ " - FR " ++
    number (blobFeedRate settings site.entry.flow)

theorem withoutSign_of_toList {text : String} {negative : Bool} {whole fraction : List Char}
    (nonempty : whole ≠ []) (digits : ∀ c ∈ whole ++ fraction, c.isDigit = true)
    (plain : text.toList = plainText negative whole fraction) :
    withoutSign text = String.ofList (plainText false whole fraction) := by
  rw [withoutSign]
  cases negative with
  | true =>
      rw [plain]
      rfl
  | false =>
      obtain ⟨first, others, rfl⟩ := List.exists_cons_of_ne_nil nonempty
      have digit : first.isDigit = true := digits first List.mem_cons_self
      rw [← plain, String.ofList_toList]
      split
      next rest signed =>
        rw [plain] at signed
        obtain rfl : first = '-' := (List.cons.inj signed).1
        contradiction
      next => rfl

theorem toList_number_of_one_le {value : Float} (finite : value.isFinite = true)
    (large : 1.0 ≤ value) :
    ∃ whole fraction, whole ≠ [] ∧ (∀ c ∈ whole ++ fraction, c.isDigit = true) ∧
      (number value).toList = plainText false whole fraction := by
  have unsigned := (Binary64.one_le_units finite large).1
  rcases Double.number_cases value with ⟨text, _⟩ | ⟨decimal, _, _, text, _⟩
  · exact ⟨['0'], [], List.cons_ne_nil _ _, List.forall_mem_singleton.mpr rfl, by rw [text]; rfl⟩
  · refine ⟨decimal.wholeDigits, decimal.fractionDigits, decimal.wholeDigits_ne_nil,
      fun c member => Decimal.isDigit_of_mem_digits member, ?_⟩
    rw [text, unsigned, Double.signed, String.toList_ofList, Decimal.positional_eq]
    rfl

/-- The label that is read from the message of a site is that of the site, whatever the
temperature in front of it is. -/
theorem ofMessage?_siteMessage (settings : Settings) (site : Site) :
    Label.ofMessage? (siteMessage settings site) = some (siteLabel settings site) := by
  obtain ⟨feed_finite, feed_large⟩ := blobFeedRate_bounded settings site.entry.flow
  obtain ⟨feedWhole, feedFraction, feed_ne, feed_digits, feed_eq⟩ :=
    toList_number_of_one_le feed_finite feed_large
  obtain ⟨negative, flowWhole, flowFraction, flow_ne, flow_digits, flow_eq⟩ :=
    IsPlainDecimal.number site.entry.flow
  have temperature_numeric := (IsPlainDecimal.number site.entry.temperature).isNumberChar
  have flow_numeric := (IsPlainDecimal.number site.entry.flow).isNumberChar
  have degrees : "°C // ".toList = ['°', 'C', ' ', '/', '/', ' '] := by decide +kernel
  have flow_found : Label.flow? (siteMessage settings site).toList =
      some (plainText false flowWhole flowFraction) := by
    have text : (siteMessage settings site).toList =
        (number site.entry.temperature).toList ++ ("°C // ".toList ++
          (plainText negative flowWhole flowFraction ++ ("mm3/s".toList ++
            ("; F".toList ++ (number (blobFeedRate settings site.entry.flow)).toList ++
              "mm/min".toList)))) := by
      simp [siteMessage, flow_eq]
    rw [text, degrees, List.cons_append,
      Label.flow?_append temperature_numeric (by decide) (by decide) (by decide)]
    simp only [List.cons_append, List.nil_append]
    iterate 6 rw [Label.flow?_cons_of_notDigit (by decide)]
    exact Label.flow?_plainText flow_ne flow_digits negative _
  have feed_found : Label.feed? (siteMessage settings site).toList =
      some (plainText false feedWhole feedFraction) := by
    have unit : "mm3/s; ".toList = ['m', 'm', '3', '/', 's', ';', ' '] := by decide +kernel
    have text : (siteMessage settings site).toList =
        ((number site.entry.temperature).toList ++ "°C // ".toList ++
          (number site.entry.flow).toList ++ "mm3/s; ".toList) ++
            ('F' :: plainText false feedWhole feedFraction ++ ("mm/min".toList ++ [])) := by
      simp [siteMessage, feed_eq]
    have noF : ∀ c ∈ (number site.entry.temperature).toList ++ "°C // ".toList ++
        (number site.entry.flow).toList ++ "mm3/s; ".toList,
        Label.sameLetter 'f' c = false := by
      have numeric {c : Char} (own : Double.isNumberChar c = true) :
          Label.sameLetter 'f' c = false :=
        Label.sameLetter_of_isNumberChar own (by decide) (by decide)
      rw [degrees, unit]
      simp only [List.forall_mem_append]
      refine ⟨⟨⟨?_, ?_⟩, ?_⟩, ?_⟩
      · exact fun c member => numeric (temperature_numeric c member)
      · simp [Label.sameLetter]
      · exact fun c member => numeric (flow_numeric c member)
      · simp [Label.sameLetter]
    rw [text, Label.feed?_append noF]
    exact Label.feed?_plainText feed_ne feed_digits []
  have feed_text : String.ofList (plainText false feedWhole feedFraction) =
      number (blobFeedRate settings site.entry.flow) := by rw [← feed_eq, String.ofList_toList]
  rw [Label.ofMessage?, flow_found, feed_found, siteLabel,
    withoutSign_of_toList flow_ne flow_digits flow_eq, ← feed_text]
  simp [← String.toList_inj]

/-! ## The messages of a plate -/

theorem messages_append (front back : List Event) :
    messages (front ++ back) = messages front ++ messages back :=
  List.filterMap_append

/-- Parking the head shows nothing. -/
theorem messages_legs (legs : List Leg) (state : MachineState) :
    messages (sequence (legs.map leg) state).1 = [] := by
  induction legs generalizing state with
  | nil => rfl
  | cons next legs induction =>
      rw [List.map_cons, sequence_cons]
      exact induction _

/-- The messages of a plate are those of its sites. -/
theorem messages_planCourse (read : Float → Float) (settings : Settings) (plan : PlatePlan) :
    messages (planCourse read settings plan {}).1 =
      plan.sites.map (siteMessage settings) := by
  have sites (sites : List Site) (state : MachineState) :
      messages (sequence (sites.map (siteCourse read settings) ++
        (parkLegs read settings plan.body).map leg) state).1 =
          sites.map (siteMessage settings) := by
    induction sites generalizing state with
    | nil => exact messages_legs _ state
    | cons site sites induction =>
        rw [List.map_cons, List.cons_append, sequence_cons, andThen, messages_append, induction]
        rfl
  rw [planCourse, andThen, messages_append, sites]
  rfl

/-- Behind each message of a plate stand the moves of its site, one for each of its legs. -/
theorem length_movesBehindMessages_plate (tower : Tower) (plan : PlatePlan)
    (oneLine : '\n' ∉ tower.profile.model.toList) :
    (movesBehindMessages (replay (tower.plate plan).program).1).map List.length =
      plan.sites.map fun site =>
        (siteLegs Double.shown tower.settings site.cell.corner).length := by
  have park (legs : List Leg) (state : MachineState) :
      movesBehindMessages (sequence (legs.map leg) state).1 = [] := by
    induction legs generalizing state with
    | nil => rfl
    | cons next legs induction =>
        rw [List.map_cons, sequence_cons]
        exact induction _
  have sites (sites : List Site) (state : MachineState) :
      (movesBehindMessages (sequence (sites.map (siteCourse Double.shown tower.settings) ++
        (parkLegs Double.shown tower.settings plan.body).map leg) state).1).map List.length =
          sites.map fun site =>
            (siteLegs Double.shown tower.settings site.cell.corner).length := by
    induction sites generalizing state with
    | nil => exact congrArg (List.map List.length) (park _ state)
    | cons site sites induction =>
        rw [List.map_cons, List.cons_append, sequence_cons]
        exact congrArg (_ :: ·) (induction _)
  rw [replay_plate_shown tower plan oneLine]
  exact sites plan.sites _

/-- Where every site of a plate has a move that leaves its place, the labels are those of its sites,
in order. -/
theorem labelTexts_plate (options : ViewOptions) (tower : Tower) (plan : PlatePlan)
    (oneLine : '\n' ∉ tower.profile.model.toList)
    (leaving : ∀ moves ∈ movesBehindMessages (replay (tower.plate plan).program).1,
      ∃ motion ∈ moves, motion.leaves = true) :
    (Drawing.ofEvents options (replay (tower.plate plan).program).1).labelTexts =
      plan.sites.map (siteLabel tower.settings) := by
  have shown_messages : messages (replay (tower.plate plan).program).1 =
      plan.sites.map (siteMessage tower.settings) := by
    rw [replay_plate_shown tower plan oneLine, messages_planCourse]
  rw [Drawing.ofEvents, Drawing.labelTexts_draw options leaving, shown_messages,
    List.filterMap_map]
  have labels : Label.ofMessage? ∘ siteMessage tower.settings =
      some ∘ siteLabel tower.settings :=
    funext (ofMessage?_siteMessage tower.settings)
  rw [labels, List.filterMap_eq_map]

/-- The picture of a plate holds as many texts as the plate has sites, and they are the labels of
these sites in order, as long as each site has a move that leaves its place. -/
theorem plate_texts (options : ViewOptions) (tower : Tower) (plan : PlatePlan)
    (oneLine : '\n' ∉ tower.profile.model.toList)
    (leaving : ∀ moves ∈ movesBehindMessages (replay (tower.plate plan).program).1,
      ∃ motion ∈ moves, motion.leaves = true) :
    let texts := (Markup.elements (render options (tower.plate plan).program)).filter
      fun element => element.name = "text"
    texts.length = (tower.plate plan).steps ∧
      texts.map Element.content = plan.sites.map fun site =>
        some ("F " ++ withoutSign (number site.entry.flow) ++ " - FR " ++
          number (blobFeedRate tower.settings site.entry.flow)) := by
  intro texts
  have contents : texts.map Element.content =
      plan.sites.map fun site => some (siteLabel tower.settings site) := by
    rw [content_texts_render, labelTexts_plate options tower plan oneLine leaving, List.map_map]
    rfl
  refine ⟨?_, contents⟩
  calc
    texts.length = (texts.map Element.content).length := (List.length_map _).symm
    _ = plan.sites.length := by rw [contents, List.length_map]
    _ = (tower.plate plan).steps := rfl

/-- A tower of two steps on a small printer. -/
def twoSteps : Tower :=
  ⟨{ flowSteps := 2 }, { model := "A", buildVolume := ⟨180.0, 180.0, 180.0⟩ }⟩

/-- Its plate. -/
def twoStepsPlan : PlatePlan :=
  twoSteps.plan twoSteps.layout 0

theorem plate_texts_twoSteps :
    (twoStepsPlan.sites.map fun site => number site.entry.flow) = ["2", "4"] ∧
    let texts := (Markup.elements (render {} (twoSteps.plate twoStepsPlan).program)).filter
      fun element => element.name = "text"
    texts.length = (twoSteps.plate twoStepsPlan).steps ∧
      texts.map Element.content = twoStepsPlan.sites.map fun site =>
        some ("F " ++ withoutSign (number site.entry.flow) ++ " - FR " ++
          number (blobFeedRate twoSteps.settings site.entry.flow)) := by
  have leaving : ∀ moves ∈ movesBehindMessages (replay (twoSteps.plate twoStepsPlan).program).1,
      ∃ motion ∈ moves, motion.leaves = true := by
    rw [replay_plate_shown twoSteps twoStepsPlan (by decide)]
    decide +kernel
  exact ⟨by decide +kernel, plate_texts {} twoSteps twoStepsPlan (by decide) leaving⟩

end Tower

end FlowCalibration

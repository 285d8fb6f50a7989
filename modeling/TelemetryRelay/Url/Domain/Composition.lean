import TelemetryRelay.Text.Mark

/-!
# Composed characters

The same letter with an accent may be one character or two. `Domain.compose` takes composed
characters apart, brings marks that do not disturb each other into one order, and composes again
what can be composed, so that equal names become equal texts.

The table has the composed characters that can occur in a domain; all others have been replaced
before.
-/

namespace TelemetryRelay.Domain

/-- The first character of each pair and what it becomes, one after the other. -/
def pairs : List Char → List (Char × Char)
  | first :: composed :: rest => (first, composed) :: pairs rest
  | _ => []

/-- For each second character, the first characters that it composes with and the results. -/
def composites : List (Nat × List (Char × Char)) :=
  ([(0x300, "aàeèiìoòuùüǜnǹеѐиѝēḕōṑwẁâầăằêềôồơờưừyỳἀἂἁἃἐἒἑἓἠἢἡἣἰἲἱἳὀὂὁὃὐὒὑὓὠὢὡὣαὰεὲηὴιὶοὸυὺωὼ"),
    (0x300, "ϊῒϋῢ"),
    (0x301, "aáeéiíoóuúyýcćlĺnńrŕsśzźüǘgǵåǻæǽøǿϊΐαάεέηήιίϋΰοόυύωώгѓкќçḉēḗïḯkḱmḿõṍōṓpṕũṹwẃâấăắ"),
    (0x301, "êếôốơớưứἀἄἁἅἐἔἑἕἠἤἡἥἰἴἱἵὀὄὁὅὐὔὑὕὠὤὡὥ"), (0x302, "aâeêiîoôuûcĉgĝhĥjĵsŝwŵyŷzẑạậẹệọộ"),
    (0x303, "aãnñoõiĩuũvṽâẫăẵeẽêễôỗơỡưữyỹ"),
    (0x308, "aäeëiïoöuüyÿιϊυϋеёіїаӓәӛжӝзӟиӥоӧөӫэӭуӱчӵыӹhḧõṏūṻwẅxẍtẗ"), (0x30A, "aåuůwẘyẙ"),
    (0x327, "cçgģkķlļnņrŗsştţeȩdḑhḩ"), (0x304, "aāeēiīoōuūüǖäǟȧǡæǣǫǭöȫõȭȯȱyȳиӣуӯgḡḷḹṛṝαᾱιῑυῡ"),
    (0x306, "aăeĕgğiĭoŏuŭийуўжӂаӑеӗȩḝạặαᾰιῐυῠ"), (0x328, "aąeęiįuųoǫ"),
    (0x307, "cċeėgġzżaȧoȯbḃdḋfḟhḣmṁnṅpṗrṙsṡśṥšṧṣṩtṫwẇxẋyẏ𐗒𐗉𐗚𐗤"),
    (0x30C, "cčdďeělľnňrřsštťzžaǎiǐoǒuǔüǚgǧkǩʒǯjǰhȟ"), (0x30B, "oőuűуӳ"), (0x31B, "oơuư"),
    (0x30F, "aȁeȅiȉoȍrȑuȕѵѷ"), (0x311, "aȃeȇiȋoȏrȓuȗ"), (0x326, "sștț"), (0x653, "اآ"),
    (0x654, "اأوؤيئەۀہۂےۓ"), (0x655, "اإ"), (0x93C, "नऩरऱळऴ"), (0x9BE, "েো"), (0x9D7, "েৌ"),
    (0xB56, "େୈ"), (0xB3E, "େୋ"), (0xB57, "େୌ"), (0xBD7, "ஒஔெௌ"), (0xBBE, "ெொேோ"), (0xC56, "ెై"),
    (0xCD5, "ಿೀೆೇೊೋ"), (0xCD6, "ೆೈ"), (0xCC2, "ೆೊ"), (0xD3E, "െൊേോ"), (0xD57, "െൌ"),
    (0xDCA, "ෙේොෝ"), (0xDCF, "ෙො"), (0xDDF, "ෙෞ"), (0x102E, "ဥဦ"),
    (0x1B35, "ᬅᬆᬇᬈᬉᬊᬋᬌᬍᬎᬑᬒᬺᬻᬼᬽᬾᭀᬿᭁᭂᭃ"), (0x325, "aḁ"),
    (0x323, "bḅdḍhḥkḳlḷmṃnṇrṛsṣtṭvṿwẉzẓaạeẹiịoọơợuụưựyỵ"), (0x331, "bḇdḏkḵlḻnṉrṟtṯzẕhẖ"),
    (0x32D, "dḓeḙlḽnṋtṱuṷ"), (0x330, "eḛiḭuṵ"), (0x32E, "hḫ"), (0x324, "uṳ"),
    (0x309, "aảâẩăẳeẻêểiỉoỏôổơởuủưửyỷ"), (0x313, "αἀεἐηἠιἰοὀυὐωὠρῤ"),
    (0x314, "αἁεἑηἡιἱοὁυὑωὡρῥ"), (0x342, "ἀἆἁἇἠἦἡἧἰἶἱἷὐὖὑὗὠὦὡὧαᾶηῆιῖϊῗυῦϋῧωῶ"),
    (0x338, "←↚→↛↔↮⇐⇍⇔⇎⇒⇏∃∄∈∉∋∌∣∤∥∦∼≁≃≄≅≇≈≉=≠≡≢≍≭<≮>≯≤≰≥≱≲≴≳≵≶≸≷≹≺⊀≻⊁⊂⊄⊃⊅⊆⊈⊇⊉⊢⊬⊨⊭⊩⊮⊫⊯≼⋠≽⋡⊑⋢⊒⋣"),
    (0x338, "⊲⋪⊳⋫⊴⋬⊵⋭"),
    (0x3099, "かがきぎくぐけげこごさざしじすずせぜそぞただちぢつづてでとどはばひびふぶへべほぼうゔゝゞカガキギクグケゲコゴサザシジスズセゼソゾタダチヂツヅテデトドハバヒビフブ"),
    (0x3099, "ヘベホボウヴワヷヰヸヱヹヲヺヽヾ"), (0x309A, "はぱひぴふぷへぺほぽハパヒピフプヘペホポ"), (0x110BA, "𑂙𑂚𑂛𑂜𑂥𑂫"),
    (0x11127, "𑄱𑄮𑄲𑄯"), (0x1133E, "𑍇𑍋"), (0x11357, "𑍇𑍌"), (0x113C9, "𑎂𑎃𑎐𑎑𑏅𑏉"), (0x113BB, "𑎄𑎅"),
    (0x113C2, "𑎋𑎎𑏅𑏂"), (0x113B8, "𑏅𑎸"), (0x114BA, "𑒹𑒻"), (0x114B0, "𑒹𑒼"), (0x114BD, "𑒹𑒾"),
    (0x115AF, "𑖸𑖺𑖹𑖻"), (0x11930, "𑤵𑤸"), (0x1611E, "𖄡𖄞"), (0x16129, "𖄡𖄩"), (0x1611F, "𖄦𖄩𖄤𖄡𖄦𖄢𖄧"),
    (0x16120, "𖄨𖄡𖄨"), (0x16D67, "𖵨𖵧𖵣𖵩𖵩𖵪")] : List (Nat × String)).map
    fun (second, text) => (second, pairs text.toList)

/-- Syllables of Hangul follow a rule: a first consonant and a vowel, then one of 27 last
consonants. -/
def composeHangul? (first second : Nat) : Option Nat :=
  if 0x1100 ≤ first ∧ first < 0x1113 ∧ 0x1161 ≤ second ∧ second < 0x1176 then
    some (0xAC00 + ((first - 0x1100) * 21 + (second - 0x1161)) * 28)
  else if 0xAC00 ≤ first ∧ first ≤ 0xD7A3 ∧ (first - 0xAC00) % 28 = 0 ∧ 0x11A7 < second ∧
      second < 0x11C3 then
    some (first + (second - 0x11A7))
  else none

/-- What two characters compose to. -/
def composePair? (first second : Char) : Option Char :=
  if second.toNat < 0x300 then none
  else match composeHangul? first.toNat second.toNat with
    | some n => some (Char.ofNat n)
    | none =>
      composites.findSome? fun (mark, results) =>
        if mark = second.toNat then (results.find? (·.1 = first)).map Prod.snd else none

/-- The two characters that a character is composed of. -/
def parts? (c : Char) : Option (Char × Char) :=
  if c.toNat < 0xC0 then none
  else composites.findSome? fun (mark, results) =>
    (results.find? (·.2 = c)).map fun result => (result.1, Char.ofNat mark)

/-- The parts of a syllable of Hangul. -/
def hangulParts (n : Nat) : List Char :=
  let i := n - 0xAC00
  let start := [Char.ofNat (0x1100 + i / 588), Char.ofNat (0x1161 + i % 588 / 28)]
  if i % 28 = 0 then start else start ++ [Char.ofNat (0x11A7 + i % 28)]

/-- Takes a character apart. The first part of a pair may be composed again, but no deeper than
`depth`. -/
def decomposeChar : (depth : Nat) → Char → List Char
  | 0, c => [c]
  | depth + 1, c =>
    if 0xAC00 ≤ c.toNat ∧ c.toNat ≤ 0xD7A3 then hangulParts c.toNat
    else match parts? c with
      | some (first, second) => decomposeChar depth first ++ [second]
      | none => [c]

/-- Puts a mark behind those before it whose class is not greater. The text is held backwards. -/
def placeMark (c : Char) : List Char → List Char
  | [] => [c]
  | d :: ds =>
    if 0 < Text.markClass c ∧ Text.markClass c < Text.markClass d then d :: placeMark c ds
    else c :: d :: ds

/-- Brings the marks behind each character into the order of their classes. -/
def orderMarks (cs : List Char) : List Char :=
  (cs.foldl (fun placed c => placeMark c placed) []).reverse

/-- Composes what follows onto `base`. A mark that stays behind the base, the latest of which is
the first of `kept`, keeps later ones of its class from it. -/
def composeOnto (base : Char) (kept : List Char) : List Char → List Char
  | [] => base :: kept.reverse
  | c :: cs =>
    let reaches := match kept with
      | [] => true
      | k :: _ => Text.markClass k < Text.markClass c
    match if reaches then composePair? base c else none with
    | some composed => composeOnto composed kept cs
    | none =>
      if Text.markClass c = 0 then base :: (kept.reverse ++ composeOnto c [] cs)
      else composeOnto base (c :: kept) cs

/-- The composed form of a text. -/
def compose (cs : List Char) : List Char :=
  match orderMarks (cs.flatMap (decomposeChar 4)) with
  | [] => []
  | c :: rest => composeOnto c [] rest

theorem decomposeChar_ascii {c : Char} (h : c.toNat < 128) : ∀ depth, decomposeChar depth c = [c]
  | 0 => rfl
  | depth + 1 => by
    have h1 : ¬ (0xAC00 ≤ c.toNat) := by omega
    have h2 : c.toNat < 0xC0 := by omega
    simp [decomposeChar, h1, parts?, h2]

theorem placeMark_ascii {c : Char} (h : c.toNat < 128) (cs : List Char) :
    placeMark c cs = c :: cs := by
  cases cs <;> simp [placeMark, Text.markClass_ascii h]

theorem orderMarks_ascii {cs : List Char} (h : ∀ c ∈ cs, c.toNat < 128) : orderMarks cs = cs := by
  have : ∀ (cs placed : List Char), (∀ c ∈ cs, c.toNat < 128) →
      cs.foldl (fun placed c => placeMark c placed) placed = cs.reverse ++ placed := by
    intro cs
    induction cs with
    | nil => simp
    | cons c cs ih =>
      intro placed h
      simp [placeMark_ascii (h c (by simp)), ih _ fun d hd => h d (by simp [hd])]
  simp [orderMarks, this cs [] h]

theorem composeOnto_ascii {cs : List Char} (h : ∀ c ∈ cs, c.toNat < 128) (base : Char) :
    composeOnto base [] cs = base :: cs := by
  induction cs generalizing base with
  | nil => simp [composeOnto]
  | cons c cs ih =>
    have hc : c.toNat < 128 := h c (by simp)
    have h3 : c.toNat < 0x300 := by omega
    have ht := ih (fun d hd => h d (by simp [hd])) c
    simp [composeOnto, composePair?, h3, Text.markClass_ascii hc, ht]

/-- ASCII is composed already. -/
theorem compose_ascii {cs : List Char} (h : ∀ c ∈ cs, c.toNat < 128) : compose cs = cs := by
  have hd : cs.flatMap (decomposeChar 4) = cs := by
    induction cs with
    | nil => rfl
    | cons c cs ih =>
      simp [decomposeChar_ascii (h c (by simp)), ih fun d hd => h d (by simp [hd])]
  rw [compose, hd, orderMarks_ascii h]
  cases cs with
  | nil => rfl
  | cons c rest => exact composeOnto_ascii (fun d hd => h d (by simp [hd])) c

end TelemetryRelay.Domain

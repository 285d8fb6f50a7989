import TelemetryRelay.Text.Mark

/-!
# Joiners

Two characters that do not show themselves say whether the letters beside them are joined. A name
may hold one only where it can be seen: behind a mark that takes the vowel from a consonant, and,
where letters are kept apart, between two that would be joined without it.
-/

namespace TelemetryRelay.Domain

/-- The letters that join on both sides. -/
def joinBoth : Ranges := .ofText "
    620 626 628 62A-62E 633-63F 641-647 649-64A 66E-66F 679-687 69A-6BF 6C1-6C2 6CC 6CE 6D0-6D1
    6FA-6FC 6FF 712-714 71A-71D 71F-727 729 72B 72D-72E 74E-758 75C-76A 76D-770 772 775-777
    77A-77F 7CA-7EA 841-845 848 84A-853 855 860 862-865 868 886 889-88D 8A0-8A9 8AF-8B0 8B3-8B8
    8BA-8C8 1807 1820-1878 1887-18AA A840-A871 10AC0-10AC4 10AD3-10AD6 10AD8-10ADC 10ADE-10AE0
    10AEB-10AEE 10B80 10B82 10B86-10B88 10B8A-10B8B 10B8D 10B90 10BAD-10BAE 10D01-10D21 10D23
    10F30-10F32 10F34-10F44 10F51-10F53 10F70-10F73 10F76-10F81 10FB0 10FB2-10FB3 10FB8
    10FBB-10FBC 10FBE-10FBF 10FC1 10FC4 10FCA 1E922-1E943"

/-- The letters that join only the letter before them. -/
def joinBefore : Ranges := .ofText "
    622-632 648 671-673 688-6D3 6D5 6EE-6EF 710-779 840-858 867-882 88E 8AA-8AC 8AE-8B9 10AC5
    10AC7 10AC9-10ACA 10ACE-10AD2 10ADD-10AE1 10AE4-10AEF 10B81-10B91 10BA9-10BAC 10D22 10F33
    10F54 10F74-10F75 10FB4-10FB6 10FB9-10FBD 10FC2-10FC3 10FC9"

/-- The letters that join only the letter behind them. -/
def joinBehind : Ranges := .ofText "A872 10ACD 10AD7 10D00 10FCB"

/-- The character that keeps letters apart. -/
def nonJoiner : Char := Char.ofNat 0x200C

/-- Whether the character joins the two beside it, or keeps them apart. -/
def isJoiner (c : Char) : Bool := c == nonJoiner || c.toNat == 0x200D

/-- The nearest letter of a text, marks aside. -/
def nearest? (cs : List Char) : Option Nat :=
  ((cs.map Char.toNat).dropWhile Text.nonspacingMarks.has).head?

/-- Whether the joiner `c` may stand between `before`, held backwards, and `behind`. -/
def joinerFits (before : List Char) (c : Char) (behind : List Char) : Bool :=
  (before.head?.map Text.markClass) == some Text.viramaClass ||
    (c == nonJoiner && (nearest? before).any (fun n => joinBoth.has n || joinBehind.has n) &&
      (nearest? behind).any fun n => joinBoth.has n || joinBefore.has n)

/-- Whether every joiner in the rest of a label may stand there. What has been passed is held
backwards. -/
def joinersFit (before : List Char) : List Char → Bool
  | [] => true
  | c :: behind =>
    (if isJoiner c then joinerFits before c behind else true) && joinersFit (c :: before) behind

end TelemetryRelay.Domain

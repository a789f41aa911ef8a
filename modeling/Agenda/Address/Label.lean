import Agenda.Text.Toggle

/-! # International labels

The labels of a host name, between its dots. A label with letters beyond ASCII is written with
its ASCII characters first and then, in digits to the base 36, how far each other character lies
from the one before it in the order of the code points. The digits have no fixed number: a
threshold that adapts to what was written tells which digit is the last.
-/

namespace Agenda.Address

/-! ## Characters of labels

The letters, digits and marks of all scripts that may stand in the label of a host name, and the
hyphen. Left out are characters that are only another way to write others, and marks that may
grow together with the character before them. What a capital letter is does not matter: labels
are in lower case.
-/

def labelToggles : List Nat := [
  45, 46, 48, 58, 97, 123, 223, 247, 248, 307, 309, 320, 322, 329, 331, 383, 384, 454, 462, 499,
  501, 688, 697, 706, 710, 722, 748, 749, 750, 751, 773, 774, 781, 783, 784, 785, 786, 787, 789,
  795, 796, 803, 809, 813, 815, 816, 818, 824, 825, 832, 838, 847, 848, 884, 887, 888, 891, 894,
  912, 930, 940, 976, 983, 1008, 1011, 1013, 1016, 1154, 1155, 1160, 1163, 1328, 1369, 1370, 1376,
  1415, 1416, 1417, 1425, 1470, 1471, 1472, 1473, 1475, 1476, 1478, 1479, 1480, 1488, 1515, 1519,
  1523, 1552, 1563, 1568, 1600, 1601, 1619, 1622, 1632, 1646, 1653, 1657, 1748, 1749, 1757, 1759,
  1769, 1770, 1776, 1786, 1792, 1808, 1867, 1869, 1970, 1984, 2038, 2045, 2046, 2048, 2094, 2112,
  2140, 2144, 2155, 2160, 2184, 2185, 2191, 2200, 2274, 2275, 2364, 2365, 2392, 2400, 2404, 2406,
  2416, 2417, 2436, 2437, 2445, 2447, 2449, 2451, 2473, 2474, 2481, 2482, 2483, 2486, 2490, 2492,
  2494, 2495, 2501, 2503, 2505, 2507, 2511, 2528, 2532, 2534, 2546, 2556, 2557, 2558, 2559, 2561,
  2564, 2565, 2571, 2575, 2577, 2579, 2601, 2602, 2609, 2610, 2611, 2613, 2614, 2616, 2618, 2620,
  2621, 2622, 2627, 2631, 2633, 2635, 2638, 2641, 2642, 2652, 2653, 2662, 2678, 2689, 2692, 2693,
  2702, 2703, 2706, 2707, 2729, 2730, 2737, 2738, 2740, 2741, 2746, 2748, 2758, 2759, 2762, 2763,
  2766, 2768, 2769, 2784, 2788, 2790, 2800, 2809, 2816, 2817, 2820, 2821, 2829, 2831, 2833, 2835,
  2857, 2858, 2865, 2866, 2868, 2869, 2874, 2876, 2878, 2879, 2885, 2887, 2889, 2891, 2894, 2901,
  2902, 2911, 2916, 2918, 2928, 2929, 2930, 2946, 2948, 2949, 2955, 2958, 2961, 2962, 2966, 2969,
  2971, 2972, 2973, 2974, 2976, 2979, 2981, 2984, 2987, 2990, 3002, 3007, 3011, 3014, 3017, 3018,
  3022, 3024, 3025, 3046, 3056, 3072, 3085, 3086, 3089, 3090, 3113, 3114, 3130, 3132, 3141, 3142,
  3145, 3146, 3150, 3157, 3158, 3160, 3163, 3165, 3166, 3168, 3172, 3174, 3184, 3200, 3204, 3205,
  3213, 3214, 3217, 3218, 3241, 3242, 3252, 3253, 3258, 3260, 3266, 3267, 3269, 3270, 3273, 3274,
  3278, 3293, 3295, 3296, 3300, 3302, 3312, 3313, 3315, 3328, 3341, 3342, 3345, 3346, 3390, 3391,
  3397, 3398, 3401, 3402, 3407, 3412, 3415, 3423, 3428, 3430, 3440, 3450, 3456, 3457, 3460, 3461,
  3479, 3482, 3506, 3507, 3516, 3517, 3518, 3520, 3527, 3536, 3541, 3542, 3543, 3544, 3551, 3558,
  3568, 3570, 3572, 3585, 3635, 3636, 3643, 3648, 3663, 3664, 3674, 3713, 3715, 3716, 3717, 3718,
  3723, 3724, 3748, 3749, 3750, 3751, 3763, 3764, 3774, 3776, 3781, 3782, 3783, 3784, 3790, 3792,
  3802, 3806, 3808, 3840, 3841, 3851, 3852, 3864, 3866, 3872, 3882, 3893, 3894, 3895, 3896, 3897,
  3898, 3902, 3907, 3908, 3912, 3913, 3917, 3918, 3922, 3923, 3927, 3928, 3932, 3933, 3945, 3946,
  3949, 3953, 3955, 3956, 3957, 3962, 3969, 3970, 3973, 3974, 3987, 3988, 3992, 3993, 3997, 3998,
  4002, 4003, 4007, 4008, 4012, 4013, 4025, 4026, 4029, 4038, 4039, 4096, 4142, 4143, 4170, 4176,
  4254, 4304, 4347, 4349, 4352, 4608, 4681, 4682, 4686, 4688, 4695, 4696, 4697, 4698, 4702, 4704,
  4745, 4746, 4750, 4752, 4785, 4786, 4790, 4792, 4799, 4800, 4801, 4802, 4806, 4808, 4823, 4824,
  4881, 4882, 4886, 4888, 4955, 4957, 4960, 4992, 5008, 5121, 5741, 5743, 5760, 5761, 5787, 5792,
  5867, 5873, 5881, 5888, 5910, 5919, 5941, 5952, 5972, 5984, 5997, 5998, 6001, 6002, 6004, 6016,
  6068, 6070, 6100, 6103, 6104, 6108, 6110, 6112, 6122, 6160, 6170, 6176, 6265, 6272, 6315, 6320,
  6390, 6400, 6431, 6432, 6444, 6448, 6460, 6470, 6510, 6512, 6517, 6528, 6572, 6576, 6602, 6608,
  6618, 6656, 6684, 6688, 6751, 6752, 6781, 6783, 6794, 6800, 6810, 6823, 6824, 6832, 6846, 6847,
  6863, 6912, 6965, 6966, 6989, 6992, 7002, 7019, 7028, 7040, 7156, 7168, 7224, 7232, 7242, 7245,
  7294, 7376, 7379, 7380, 7419, 7424, 7468, 7471, 7472, 7483, 7484, 7502, 7503, 7531, 7544, 7545,
  7579, 7616, 7834, 7836, 7958, 7968, 8006, 8016, 8024, 8032, 8049, 8050, 8051, 8052, 8053, 8054,
  8055, 8056, 8057, 8058, 8059, 8060, 8061, 8112, 8114, 8118, 8119, 8134, 8135, 8144, 8147, 8150,
  8156, 8160, 8163, 8164, 8173, 8182, 8183, 8526, 8527, 8580, 8581, 11312, 11388, 11393, 11493,
  11500, 11508, 11520, 11558, 11559, 11560, 11565, 11566, 11568, 11624, 11647, 11671, 11680,
  11687, 11688, 11695, 11696, 11703, 11704, 11711, 11712, 11719, 11720, 11727, 11728, 11735,
  11736, 11743, 11744, 11776, 11823, 11824, 12293, 12296, 12330, 12334, 12348, 12349, 12353,
  12439, 12445, 12447, 12449, 12539, 12540, 12543, 12549, 12592, 12704, 12736, 12784, 12800,
  13312, 19904, 19968, 42125, 42192, 42238, 42240, 42509, 42512, 42540, 42561, 42608, 42612,
  42622, 42623, 42652, 42654, 42726, 42736, 42738, 42775, 42784, 42787, 42864, 42865, 42889,
  42892, 42955, 42961, 42962, 42963, 42964, 42965, 42970, 42998, 43000, 43002, 43048, 43052,
  43053, 43072, 43124, 43136, 43206, 43216, 43226, 43232, 43256, 43259, 43260, 43261, 43310,
  43312, 43348, 43392, 43457, 43471, 43482, 43488, 43519, 43520, 43575, 43584, 43598, 43600,
  43610, 43616, 43639, 43642, 43715, 43739, 43742, 43744, 43760, 43762, 43767, 43777, 43783,
  43785, 43791, 43793, 43799, 43808, 43815, 43816, 43823, 43824, 43867, 43872, 43881, 43968,
  44011, 44012, 44014, 44016, 44026, 44032, 55204, 64014, 64016, 64017, 64018, 64019, 64021,
  64031, 64032, 64033, 64034, 64035, 64037, 64039, 64042, 64286, 64287, 65056, 65072, 65139,
  65140, 65536, 65548, 65549, 65575, 65576, 65595, 65596, 65598, 65599, 65614, 65616, 65630,
  65664, 65787, 66045, 66046, 66176, 66205, 66208, 66257, 66272, 66273, 66304, 66336, 66349,
  66369, 66370, 66378, 66384, 66427, 66432, 66462, 66464, 66500, 66504, 66512, 66600, 66718,
  66720, 66730, 66776, 66812, 66816, 66856, 66864, 66916, 66967, 66978, 66979, 66994, 66995,
  67002, 67003, 67005, 67072, 67383, 67392, 67414, 67424, 67432, 67456, 67457, 67584, 67590,
  67592, 67593, 67594, 67638, 67639, 67641, 67644, 67645, 67647, 67670, 67680, 67703, 67712,
  67743, 67808, 67827, 67828, 67830, 67840, 67862, 67872, 67898, 67968, 68024, 68030, 68032,
  68096, 68100, 68101, 68103, 68108, 68116, 68117, 68120, 68121, 68150, 68152, 68155, 68159,
  68160, 68192, 68221, 68224, 68253, 68288, 68296, 68297, 68327, 68352, 68406, 68416, 68438,
  68448, 68467, 68480, 68498, 68608, 68681, 68800, 68851, 68864, 68904, 68912, 68922, 69248,
  69290, 69291, 69293, 69296, 69298, 69376, 69405, 69415, 69416, 69424, 69457, 69488, 69510,
  69552, 69573, 69600, 69623, 69632, 69703, 69734, 69750, 69759, 69818, 69826, 69827, 69840,
  69865, 69872, 69882, 69888, 69927, 69928, 69941, 69942, 69952, 69956, 69960, 69968, 70004,
  70006, 70007, 70016, 70085, 70089, 70093, 70094, 70107, 70108, 70109, 70144, 70162, 70163,
  70200, 70206, 70207, 70272, 70279, 70280, 70281, 70282, 70286, 70287, 70302, 70303, 70313,
  70320, 70379, 70384, 70394, 70400, 70404, 70405, 70413, 70415, 70417, 70419, 70441, 70442,
  70449, 70450, 70452, 70453, 70458, 70459, 70462, 70463, 70469, 70471, 70473, 70475, 70478,
  70480, 70481, 70493, 70500, 70502, 70509, 70512, 70517, 70656, 70731, 70736, 70746, 70750,
  70754, 70784, 70832, 70833, 70842, 70843, 70845, 70846, 70854, 70855, 70856, 70864, 70874,
  71040, 71087, 71088, 71094, 71096, 71105, 71128, 71134, 71168, 71233, 71236, 71237, 71248,
  71258, 71296, 71353, 71360, 71370, 71424, 71451, 71453, 71468, 71472, 71482, 71488, 71495,
  71680, 71739, 71872, 71914, 71935, 71943, 71945, 71946, 71948, 71956, 71957, 71959, 71960,
  71984, 71985, 71990, 71991, 71993, 71995, 72004, 72016, 72026, 72096, 72104, 72106, 72152,
  72154, 72162, 72163, 72165, 72192, 72255, 72263, 72264, 72272, 72346, 72349, 72350, 72368,
  72441, 72704, 72713, 72714, 72759, 72760, 72769, 72784, 72794, 72818, 72848, 72850, 72872,
  72873, 72887, 72960, 72967, 72968, 72970, 72971, 73015, 73018, 73019, 73020, 73022, 73023,
  73032, 73040, 73050, 73056, 73062, 73063, 73065, 73066, 73103, 73104, 73106, 73107, 73113,
  73120, 73130, 73440, 73463, 73648, 73649, 73728, 74650, 74880, 75076, 77712, 77809, 77824,
  78895, 82944, 83527, 92160, 92729, 92736, 92767, 92768, 92778, 92784, 92863, 92864, 92874,
  92880, 92910, 92912, 92917, 92928, 92983, 92992, 92996, 93008, 93018, 93027, 93048, 93053,
  93072, 93792, 93824, 93952, 94027, 94031, 94088, 94095, 94112, 94176, 94178, 94179, 94181,
  94192, 94194, 94208, 100344, 100352, 101590, 101632, 101641, 110576, 110580, 110581, 110588,
  110589, 110591, 110592, 110883, 110928, 110931, 110948, 110952, 110960, 111356, 113664, 113771,
  113776, 113789, 113792, 113801, 113808, 113818, 113821, 113823, 118528, 118574, 118576, 118599,
  121344, 121399, 121403, 121453, 121461, 121462, 121476, 121477, 121499, 121504, 121505, 121520,
  122624, 122655, 122880, 122887, 122888, 122905, 122907, 122914, 122915, 122917, 122918, 122923,
  123136, 123181, 123184, 123198, 123200, 123210, 123214, 123215, 123536, 123567, 123584, 123642,
  124896, 124903, 124904, 124908, 124909, 124911, 124912, 124927, 124928, 125125, 125136, 125143,
  125218, 125260, 125264, 125274, 131072, 173792, 173824, 177977, 177984, 178206, 178208, 183970,
  183984, 191457, 196608, 201547]

def labelChar (c : Char) : Bool :=
  Text.toggled false labelToggles c.toNat

def ascii (c : Char) : Bool :=
  c.toNat < 128

/-! ## Digits to the base 36 -/

/-- The letters stand for the digits from zero on, the ten digits for the rest. -/
def labelDigit (d : Nat) : Char :=
  Char.ofNat (if d < 26 then 97 + d else 22 + d)

/-- The least digit after which a number goes on, at a place counted in steps of 36. -/
def threshold (place bias : Nat) : Nat :=
  if place ≤ bias then 1 else min (place - bias) 26

theorem threshold_pos (place bias : Nat) : 1 ≤ threshold place bias := by
  unfold threshold
  split <;> omega

/-- The digits of a number, least first. -/
def labelDigits (bias place n : Nat) : List Char :=
  let t := threshold place bias
  if n < t then [labelDigit n]
  else labelDigit (t + (n - t) % (36 - t)) :: labelDigits bias (place + 36) ((n - t) / (36 - t))
termination_by n
decreasing_by
  have := threshold_pos place bias
  exact Nat.lt_of_le_of_lt (Nat.div_le_self _ _) (by omega)

/-- The bias for a distance that takes `place / 36` more digits than one of at most 455. -/
def biasOf (place distance : Nat) : Nat :=
  if 455 < distance then biasOf (place + 36) (distance / 35)
  else place + 36 * distance / (distance + 38)
termination_by distance
decreasing_by exact Nat.div_lt_self (by omega) (by omega)

/-- The bias after a distance was written, when `written` characters are. -/
def adapted (distance written : Nat) (first : Bool) : Nat :=
  let d := if first then distance / 700 else distance / 2
  biasOf 0 (d + d / written)

/-! ## Labels -/

/-- A label in the course of writing: what is written, the distance since the last character
written, the bias and the number of characters written. -/
structure Writing where
  done : List Char := []
  distance : Nat := 0
  bias : Nat := 72
  count : Nat

/-- Passes a character of the label in the round for the code point `n`. -/
def Writing.pass (basic n : Nat) (w : Writing) (c : Char) : Writing :=
  if c.toNat < n then { w with distance := w.distance + 1 }
  else if c.toNat = n then
    { done := w.done ++ labelDigits w.bias 36 w.distance
      distance := 0
      bias := adapted w.distance (w.count + 1) (w.count == basic)
      count := w.count + 1 }
  else w

/-- One round for each code point, in rising order; the next possible one is `next`. -/
def Writing.rounds (label : List Char) (basic : Nat) : Nat → List Nat → Writing → Writing
  | _, [], w => w
  | next, n :: ns, w =>
    let w := label.foldl (pass basic n) { w with distance := w.distance + (n - next) * (w.count + 1) }
    rounds label basic (n + 1) ns { w with distance := w.distance + 1 }

def asciiLabel (label : List Char) : List Char :=
  if label.all ascii then label
  else
    let basic := label.filter ascii
    let others := ((label.filter (!ascii ·)).map Char.toNat).mergeSort.eraseReps
    let w := Writing.rounds label basic.length 128 others { count := basic.length }
    ['x', 'n', '-', '-'] ++ basic ++ (if basic.isEmpty then [] else ['-']) ++ w.done

/-! ## Direction -/

/-- The digits of the Arabic script, which run with its letters. -/
def arabicDigit (c : Char) : Bool :=
  0x660 ≤ c.toNat && c.toNat ≤ 0x669

/-- Digits that run from left to right: those of ASCII and the farther row of the Arabic script. -/
def plainDigit (c : Char) : Bool :=
  ('0' ≤ c && c ≤ '9') || (0x6F0 ≤ c.toNat && c.toNat ≤ 0x6F9)

/-- The scripts that run from right to left. -/
def leftward (c : Char) : Bool :=
  let n := c.toNat
  ((0x590 ≤ n && n ≤ 0x8FF) || (0xFB1D ≤ n && n ≤ 0xFDFF) || (0xFE70 ≤ n && n ≤ 0xFEFF) ||
    (0x10800 ≤ n && n ≤ 0x10FFF) || (0x1E800 ≤ n && n ≤ 0x1EFFF)) && !plainDigit c

/-- A label with a character that runs from right to left begins with a letter that does, goes on
with nothing but such letters, digits and hyphens, and has digits of one kind. -/
def directed (label : List Char) : Bool :=
  !label.any leftward ||
    (label.head?.any (fun c => leftward c && !arabicDigit c) &&
      label.all (fun c => leftward c || plainDigit c || c == '-') &&
      !(label.any arabicDigit && label.any plainDigit))

/-! ## Names -/

/-- A label without the dots above the letter i; a capital one in lower case leaves such a dot. -/
def undotted : List Char → List Char
  | [] => []
  | 'i' :: '\u0307' :: cs => 'i' :: undotted cs
  | c :: cs => c :: undotted cs

/-- A label consists of letters, digits, marks and inner hyphens, no two hyphens in the third and
the fourth place except where a label is already in ASCII. -/
def labelAllowed (label : List Char) : Bool :=
  let marked := label.all ascii && ['x', 'n', '-', '-'].isPrefixOf label
  !label.isEmpty && label.head? != some '-' && label.getLast? != some '-' &&
    (undotted label).all (fun c => labelChar c || arabicDigit c || plainDigit c) &&
    directed label && (marked || (label.drop 2).take 2 != ['-', '-'])

/-- The characters that part the labels of an international name. -/
def labelDots : List Char :=
  ['.', '。', '．', '｡']

/-- An international host name in ASCII. A last empty label is allowed, no label is longer than 63
characters and no name longer than 253. -/
def asciiName? (name : List Char) : Option (List Char) :=
  let labels := name.splitOnP labelDots.contains
  let rooted := labels.getLast? == some []
  let labels := if rooted then labels.dropLast else labels
  let written := labels.map asciiLabel
  let whole := List.intercalate ['.'] (if rooted then written ++ [[]] else written)
  if labels.isEmpty || !labels.all labelAllowed || written.any (63 < ·.length) ||
      (if rooted then 254 else 253) < whole.length then none
  else some whole

end Agenda.Address

import Stencil.Text.Basic

/-!
# Plain spellings

The compatibility decompositions of Unicode 14 that matter to a reader of ASCII letters and digits.
A row gives a spelling and the characters that decompose to it; combining marks are left out of the
spellings, and so are characters whose decomposition holds no ASCII letter, digit or ampersand,
unless it holds nothing but marks.
-/

set_option autoImplicit false

namespace Stencil

/-- A spelling, and the characters that are spelled so. -/
abbrev SpellingRow := String × String

/-- Characters spelled with one letter or digit, and those that only combine. -/
def singleSpellings : List SpellingRow :=
  [("", "\u0f73\u0f75\u0f81ﾞﾟ"), ("&", "﹠＆"), ("0", "⁰₀⓪０𝟎𝟘𝟢𝟬𝟶🯰"), ("1", "¹₁①１𝟏𝟙𝟣𝟭𝟷🯱"),
   ("2", "²₂②２𝟐𝟚𝟤𝟮𝟸🯲"), ("3", "³₃③３𝟑𝟛𝟥𝟯𝟹🯳"), ("4", "⁴₄④４𝟒𝟜𝟦𝟰𝟺🯴"), ("5", "⁵₅⑤５𝟓𝟝𝟧𝟱𝟻🯵"),
   ("6", "⁶₆⑥６𝟔𝟞𝟨𝟲𝟼🯶"), ("7", "⁷₇⑦７𝟕𝟟𝟩𝟳𝟽🯷"), ("8", "⁸₈⑧８𝟖𝟠𝟪𝟴𝟾🯸"), ("9", "⁹₉⑨９𝟗𝟡𝟫𝟵𝟿🯹"),
   ("A", "ÀÁÂÃÄÅĀĂĄǍǞǠǺȀȂȦᴬḀẠẢẤẦẨẪẬẮẰẲẴẶ\u212bⒶＡ𝐀𝐴𝑨𝒜𝓐𝔄𝔸"), ("A", "𝕬𝖠𝗔𝘈𝘼𝙰🄰"),
   ("B", "ᴮḂḄḆℬⒷＢ𝐁𝐵𝑩𝓑𝔅𝔹𝕭𝖡𝗕𝘉𝘽𝙱🄱"), ("C", "ÇĆĈĊČḈℂℭⅭⒸꟲＣ𝐂𝐶𝑪𝒞𝓒𝕮𝖢𝗖𝘊𝘾𝙲🄫🄲"),
   ("D", "ĎᴰḊḌḎḐḒⅅⅮⒹＤ𝐃𝐷𝑫𝒟𝓓𝔇𝔻𝕯𝖣𝗗𝘋𝘿𝙳🄳"), ("E", "ÈÉÊËĒĔĖĘĚȄȆȨᴱḔḖḘḚḜẸẺẼẾỀỂỄỆℰⒺＥ𝐄𝐸𝑬𝓔𝔈𝔼𝕰𝖤𝗘𝘌𝙀"),
   ("E", "𝙴🄴"), ("F", "ḞℱⒻꟳＦ𝐅𝐹𝑭𝓕𝔉𝔽𝕱𝖥𝗙𝘍𝙁𝙵🄵"), ("G", "ĜĞĠĢǦǴᴳḠⒼＧ𝐆𝐺𝑮𝒢𝓖𝔊𝔾𝕲𝖦𝗚𝘎𝙂𝙶🄶"),
   ("H", "ĤȞᴴḢḤḦḨḪℋℌℍⒽＨ𝐇𝐻𝑯𝓗𝕳𝖧𝗛𝘏𝙃𝙷🄷"), ("I", "ÌÍÎÏĨĪĬĮİǏȈȊᴵḬḮỈỊℐℑⅠⒾＩ𝐈𝐼𝑰𝓘𝕀𝕴𝖨𝗜𝘐𝙄𝙸🄸"),
   ("J", "ĴᴶⒿＪ𝐉𝐽𝑱𝒥𝓙𝔍𝕁𝕵𝖩𝗝𝘑𝙅𝙹🄹"), ("K", "ĶǨᴷḰḲḴ\u212aⓀＫ𝐊𝐾𝑲𝒦𝓚𝔎𝕂𝕶𝖪𝗞𝘒𝙆𝙺🄺"),
   ("L", "ĹĻĽᴸḶḸḺḼℒⅬⓁＬ𝐋𝐿𝑳𝓛𝔏𝕃𝕷𝖫𝗟𝘓𝙇𝙻🄻"), ("M", "ᴹḾṀṂℳⅯⓂＭ𝐌𝑀𝑴𝓜𝔐𝕄𝕸𝖬𝗠𝘔𝙈𝙼🄼"),
   ("N", "ÑŃŅŇǸᴺṄṆṈṊℕⓃＮ𝐍𝑁𝑵𝒩𝓝𝔑𝕹𝖭𝗡𝘕𝙉𝙽🄽"), ("O", "ÒÓÔÕÖŌŎŐƠǑǪǬȌȎȪȬȮȰᴼṌṎṐṒỌỎỐỒỔỖỘỚỜỞỠỢⓄＯ𝐎𝑂𝑶"),
   ("O", "𝒪𝓞𝔒𝕆𝕺𝖮𝗢𝘖𝙊𝙾🄾"), ("P", "ᴾṔṖℙⓅＰ𝐏𝑃𝑷𝒫𝓟𝔓𝕻𝖯𝗣𝘗𝙋𝙿🄿"), ("Q", "ℚⓆꟴＱ𝐐𝑄𝑸𝒬𝓠𝔔𝕼𝖰𝗤𝘘𝙌𝚀🅀"),
   ("R", "ŔŖŘȐȒᴿṘṚṜṞℛℜℝⓇＲ𝐑𝑅𝑹𝓡𝕽𝖱𝗥𝘙𝙍𝚁🄬🅁"), ("S", "ŚŜŞŠȘṠṢṤṦṨⓈＳ𝐒𝑆𝑺𝒮𝓢𝔖𝕊𝕾𝖲𝗦𝘚𝙎𝚂🅂"),
   ("T", "ŢŤȚᵀṪṬṮṰⓉＴ𝐓𝑇𝑻𝒯𝓣𝔗𝕋𝕿𝖳𝗧𝘛𝙏𝚃🅃"), ("U", "ÙÚÛÜŨŪŬŮŰŲƯǓǕǗǙǛȔȖᵁṲṴṶṸṺỤỦỨỪỬỮỰⓊＵ𝐔𝑈𝑼𝒰𝓤𝔘𝕌"),
   ("U", "𝖀𝖴𝗨𝘜𝙐𝚄🅄"), ("V", "ṼṾⅤⓋⱽＶ𝐕𝑉𝑽𝒱𝓥𝔙𝕍𝖁𝖵𝗩𝘝𝙑𝚅🅅"), ("W", "ŴᵂẀẂẄẆẈⓌＷ𝐖𝑊𝑾𝒲𝓦𝔚𝕎𝖂𝖶𝗪𝘞𝙒𝚆🅆"),
   ("X", "ẊẌⅩⓍＸ𝐗𝑋𝑿𝒳𝓧𝔛𝕏𝖃𝖷𝗫𝘟𝙓𝚇🅇"), ("Y", "ÝŶŸȲẎỲỴỶỸⓎＹ𝐘𝑌𝒀𝒴𝓨𝔜𝕐𝖄𝖸𝗬𝘠𝙔𝚈🅈"),
   ("Z", "ŹŻŽẐẒẔℤℨⓏＺ𝐙𝑍𝒁𝒵𝓩𝖅𝖹𝗭𝘡𝙕𝚉🅉"), ("a", "ªàáâãäåāăąǎǟǡǻȁȃȧᵃḁạảấầẩẫậắằẳẵặₐⓐａ𝐚𝑎𝒂𝒶𝓪𝔞"),
   ("a", "𝕒𝖆𝖺𝗮𝘢𝙖𝚊"), ("b", "ᵇḃḅḇⓑｂ𝐛𝑏𝒃𝒷𝓫𝔟𝕓𝖇𝖻𝗯𝘣𝙗𝚋"), ("c", "çćĉċčᶜḉⅽⓒｃ𝐜𝑐𝒄𝒸𝓬𝔠𝕔𝖈𝖼𝗰𝘤𝙘𝚌"),
   ("d", "ďᵈḋḍḏḑḓⅆⅾⓓｄ𝐝𝑑𝒅𝒹𝓭𝔡𝕕𝖉𝖽𝗱𝘥𝙙𝚍"), ("e", "èéêëēĕėęěȅȇȩᵉḕḗḙḛḝẹẻẽếềểễệₑℯⅇⓔｅ𝐞𝑒𝒆𝓮𝔢𝕖𝖊𝖾𝗲"),
   ("e", "𝘦𝙚𝚎"), ("f", "ᶠḟⓕｆ𝐟𝑓𝒇𝒻𝓯𝔣𝕗𝖋𝖿𝗳𝘧𝙛𝚏"), ("g", "ĝğġģǧǵᵍḡℊⓖｇ𝐠𝑔𝒈𝓰𝔤𝕘𝖌𝗀𝗴𝘨𝙜𝚐"),
   ("h", "ĥȟʰḣḥḧḩḫẖₕℎⓗｈ𝐡𝒉𝒽𝓱𝔥𝕙𝖍𝗁𝗵𝘩𝙝𝚑"), ("i", "ìíîïĩīĭįǐȉȋᵢḭḯỉịⁱℹⅈⅰⓘｉ𝐢𝑖𝒊𝒾𝓲𝔦𝕚𝖎𝗂𝗶𝘪𝙞𝚒"),
   ("j", "ĵǰʲⅉⓙⱼｊ𝐣𝑗𝒋𝒿𝓳𝔧𝕛𝖏𝗃𝗷𝘫𝙟𝚓"), ("k", "ķǩᵏḱḳḵₖⓚｋ𝐤𝑘𝒌𝓀𝓴𝔨𝕜𝖐𝗄𝗸𝘬𝙠𝚔"),
   ("l", "ĺļľˡḷḹḻḽₗℓⅼⓛｌ𝐥𝑙𝒍𝓁𝓵𝔩𝕝𝖑𝗅𝗹𝘭𝙡𝚕"), ("m", "ᵐḿṁṃₘⅿⓜｍ𝐦𝑚𝒎𝓂𝓶𝔪𝕞𝖒𝗆𝗺𝘮𝙢𝚖"),
   ("n", "ñńņňǹṅṇṉṋⁿₙⓝｎ𝐧𝑛𝒏𝓃𝓷𝔫𝕟𝖓𝗇𝗻𝘯𝙣𝚗"), ("o", "ºòóôõöōŏőơǒǫǭȍȏȫȭȯȱᵒṍṏṑṓọỏốồổỗộớờởỡợₒℴⓞｏ"),
   ("o", "𝐨𝑜𝒐𝓸𝔬𝕠𝖔𝗈𝗼𝘰𝙤𝚘"), ("p", "ᵖṕṗₚⓟｐ𝐩𝑝𝒑𝓅𝓹𝔭𝕡𝖕𝗉𝗽𝘱𝙥𝚙"), ("q", "ⓠｑ𐞥𝐪𝑞𝒒𝓆𝓺𝔮𝕢𝖖𝗊𝗾𝘲𝙦𝚚"),
   ("r", "ŕŗřȑȓʳᵣṙṛṝṟⓡｒ𝐫𝑟𝒓𝓇𝓻𝔯𝕣𝖗𝗋𝗿𝘳𝙧𝚛"), ("s", "śŝşšſșˢṡṣṥṧṩẛₛⓢｓ𝐬𝑠𝒔𝓈𝓼𝔰𝕤𝖘𝗌𝘀𝘴𝙨𝚜"),
   ("t", "ţťțᵗṫṭṯṱẗₜⓣｔ𝐭𝑡𝒕𝓉𝓽𝔱𝕥𝖙𝗍𝘁𝘵𝙩𝚝"), ("u", "ùúûüũūŭůűųưǔǖǘǚǜȕȗᵘᵤṳṵṷṹṻụủứừửữựⓤｕ𝐮𝑢𝒖𝓊𝓾𝔲"),
   ("u", "𝕦𝖚𝗎𝘂𝘶𝙪𝚞"), ("v", "ᵛᵥṽṿⅴⓥｖ𝐯𝑣𝒗𝓋𝓿𝔳𝕧𝖛𝗏𝘃𝘷𝙫𝚟"), ("w", "ŵʷẁẃẅẇẉẘⓦｗ𝐰𝑤𝒘𝓌𝔀𝔴𝕨𝖜𝗐𝘄𝘸𝙬𝚠"),
   ("x", "ˣẋẍₓⅹⓧｘ𝐱𝑥𝒙𝓍𝔁𝔵𝕩𝖝𝗑𝘅𝘹𝙭𝚡"), ("y", "ýÿŷȳʸẏẙỳỵỷỹⓨｙ𝐲𝑦𝒚𝓎𝔂𝔶𝕪𝖞𝗒𝘆𝘺𝙮𝚢"),
   ("z", "źżžᶻẑẓẕⓩｚ𝐳𝑧𝒛𝓏𝔃𝔷𝕫𝖟𝗓𝘇𝘻𝙯𝚣")]

/-- Numerals with a mark, fractions, and names of hours, days and months. -/
def numberSpellings : List SpellingRow :=
  [("0,", "🄁"), ("0.", "🄀"), ("0⁄3", "↉"), ("0点", "㍘"), ("1,", "🄂"), ("1.", "⒈"), ("10", "⑩"),
   ("10.", "⒑"), ("10日", "㏩"), ("10月", "㋉"), ("10点", "㍢"), ("11", "⑪"), ("11.", "⒒"),
   ("11日", "㏪"), ("11月", "㋊"), ("11点", "㍣"), ("12", "⑫"), ("12.", "⒓"), ("12日", "㏫"),
   ("12月", "㋋"), ("12点", "㍤"), ("13", "⑬"), ("13.", "⒔"), ("13日", "㏬"), ("13点", "㍥"),
   ("14", "⑭"), ("14.", "⒕"), ("14日", "㏭"), ("14点", "㍦"), ("15", "⑮"), ("15.", "⒖"),
   ("15日", "㏮"), ("15点", "㍧"), ("16", "⑯"), ("16.", "⒗"), ("16日", "㏯"), ("16点", "㍨"),
   ("17", "⑰"), ("17.", "⒘"), ("17日", "㏰"), ("17点", "㍩"), ("18", "⑱"), ("18.", "⒙"),
   ("18日", "㏱"), ("18点", "㍪"), ("19", "⑲"), ("19.", "⒚"), ("19日", "㏲"), ("19点", "㍫"),
   ("1⁄", "⅟"), ("1⁄10", "⅒"), ("1⁄2", "½"), ("1⁄3", "⅓"), ("1⁄4", "¼"), ("1⁄5", "⅕"),
   ("1⁄6", "⅙"), ("1⁄7", "⅐"), ("1⁄8", "⅛"), ("1⁄9", "⅑"), ("1日", "㏠"), ("1月", "㋀"),
   ("1点", "㍙"), ("2,", "🄃"), ("2.", "⒉"), ("20", "⑳"), ("20.", "⒛"), ("20日", "㏳"), ("20点", "㍬"),
   ("21", "㉑"), ("21日", "㏴"), ("21点", "㍭"), ("22", "㉒"), ("22日", "㏵"), ("22点", "㍮"),
   ("23", "㉓"), ("23日", "㏶"), ("23点", "㍯"), ("24", "㉔"), ("24日", "㏷"), ("24点", "㍰"),
   ("25", "㉕"), ("25日", "㏸"), ("26", "㉖"), ("26日", "㏹"), ("27", "㉗"), ("27日", "㏺"), ("28", "㉘"),
   ("28日", "㏻"), ("29", "㉙"), ("29日", "㏼"), ("2⁄3", "⅔"), ("2⁄5", "⅖"), ("2日", "㏡"),
   ("2月", "㋁"), ("2点", "㍚"), ("3,", "🄄"), ("3.", "⒊"), ("30", "㉚"), ("30日", "㏽"), ("31", "㉛"),
   ("31日", "㏾"), ("32", "㉜"), ("33", "㉝"), ("34", "㉞"), ("35", "㉟"), ("36", "㊱"), ("37", "㊲"),
   ("38", "㊳"), ("39", "㊴"), ("3⁄4", "¾"), ("3⁄5", "⅗"), ("3⁄8", "⅜"), ("3日", "㏢"), ("3月", "㋂"),
   ("3点", "㍛"), ("4,", "🄅"), ("4.", "⒋"), ("40", "㊵"), ("41", "㊶"), ("42", "㊷"), ("43", "㊸"),
   ("44", "㊹"), ("45", "㊺"), ("46", "㊻"), ("47", "㊼"), ("48", "㊽"), ("49", "㊾"), ("4⁄5", "⅘"),
   ("4日", "㏣"), ("4月", "㋃"), ("4点", "㍜"), ("5,", "🄆"), ("5.", "⒌"), ("50", "㊿"), ("5⁄6", "⅚"),
   ("5⁄8", "⅝"), ("5日", "㏤"), ("5月", "㋄"), ("5点", "㍝"), ("6,", "🄇"), ("6.", "⒍"), ("6日", "㏥"),
   ("6月", "㋅"), ("6点", "㍞"), ("7,", "🄈"), ("7.", "⒎"), ("7⁄8", "⅞"), ("7日", "㏦"), ("7月", "㋆"),
   ("7点", "㍟"), ("8,", "🄉"), ("8.", "⒏"), ("8日", "㏧"), ("8月", "㋇"), ("8点", "㍠"), ("9,", "🄊"),
   ("9.", "⒐"), ("9日", "㏨"), ("9月", "㋈"), ("9点", "㍡")]

/-- Spellings in brackets, or that start with another mark. -/
def bracketSpellings : List SpellingRow :=
  [("(1)", "⑴"), ("(10)", "⑽"), ("(11)", "⑾"), ("(12)", "⑿"), ("(13)", "⒀"), ("(14)", "⒁"),
   ("(15)", "⒂"), ("(16)", "⒃"), ("(17)", "⒄"), ("(18)", "⒅"), ("(19)", "⒆"), ("(2)", "⑵"),
   ("(20)", "⒇"), ("(3)", "⑶"), ("(4)", "⑷"), ("(5)", "⑸"), ("(6)", "⑹"), ("(7)", "⑺"),
   ("(8)", "⑻"), ("(9)", "⑼"), ("(A)", "🄐"), ("(B)", "🄑"), ("(C)", "🄒"), ("(D)", "🄓"),
   ("(E)", "🄔"), ("(F)", "🄕"), ("(G)", "🄖"), ("(H)", "🄗"), ("(I)", "🄘"), ("(J)", "🄙"),
   ("(K)", "🄚"), ("(L)", "🄛"), ("(M)", "🄜"), ("(N)", "🄝"), ("(O)", "🄞"), ("(P)", "🄟"),
   ("(Q)", "🄠"), ("(R)", "🄡"), ("(S)", "🄢"), ("(T)", "🄣"), ("(U)", "🄤"), ("(V)", "🄥"),
   ("(W)", "🄦"), ("(X)", "🄧"), ("(Y)", "🄨"), ("(Z)", "🄩"), ("(a)", "⒜"), ("(b)", "⒝"),
   ("(c)", "⒞"), ("(d)", "⒟"), ("(e)", "⒠"), ("(f)", "⒡"), ("(g)", "⒢"), ("(h)", "⒣"),
   ("(i)", "⒤"), ("(j)", "⒥"), ("(k)", "⒦"), ("(l)", "⒧"), ("(m)", "⒨"), ("(n)", "⒩"),
   ("(o)", "⒪"), ("(p)", "⒫"), ("(q)", "⒬"), ("(r)", "⒭"), ("(s)", "⒮"), ("(t)", "⒯"),
   ("(u)", "⒰"), ("(v)", "⒱"), ("(w)", "⒲"), ("(x)", "⒳"), ("(y)", "⒴"), ("(z)", "⒵"),
   ("°C", "℃"), ("°F", "℉"), ("〔S〕", "🄪")]

/-- Ligatures, units and abbreviations, up to a small m. -/
def ligatureSpellings : List SpellingRow :=
  [("AU", "㍳"), ("A∕m", "㏟"), ("Bq", "㏃"), ("CD", "🄭"), ("Co.", "㏇"), ("C∕kg", "㏆"),
   ("DJ", "🆐"), ("DZ", "ǄǱ"), ("Dz", "ǅǲ"), ("FAX", "℻"), ("GB", "㎇"), ("GHz", "㎓"),
   ("GPa", "㎬"), ("Gy", "㏉"), ("HP", "㏋"), ("HV", "🅊"), ("Hg", "㋌"), ("Hz", "㎐"), ("II", "Ⅱ"),
   ("III", "Ⅲ"), ("IJ", "Ĳ"), ("IU", "㍺"), ("IV", "Ⅳ"), ("IX", "Ⅸ"), ("KB", "㎅"), ("KK", "㏍"),
   ("KM", "㏎"), ("LJ", "Ǉ"), ("LTD", "㋏"), ("Lj", "ǈ"), ("L·", "Ŀ"), ("MB", "㎆"), ("MC", "🅪"),
   ("MD", "🅫"), ("MHz", "㎒"), ("MPa", "㎫"), ("MR", "🅬"), ("MV", "㎹🅋"), ("MW", "㎿"), ("MΩ", "㏁"),
   ("NJ", "Ǌ"), ("Nj", "ǋ"), ("No", "№"), ("PH", "㏗"), ("PPM", "㏙"), ("PPV", "🅎"), ("PR", "㏚"),
   ("PTE", "㉐"), ("Pa", "㎩"), ("Rs", "₨"), ("SD", "🅌"), ("SM", "℠"), ("SS", "🅍"), ("Sv", "㏜"),
   ("TEL", "℡"), ("THz", "㎔"), ("TM", "™"), ("VI", "Ⅵ"), ("VII", "Ⅶ"), ("VIII", "Ⅷ"),
   ("V∕m", "㏞"), ("WC", "🅏"), ("WZ", "🄮"), ("Wb", "㏝"), ("XI", "Ⅺ"), ("XII", "Ⅻ"),
   ("a.m.", "㏂"), ("a/c", "℀"), ("a/s", "℁"), ("aʾ", "ẚ"), ("bar", "㍴"), ("c/o", "℅"),
   ("c/u", "℆"), ("cal", "㎈"), ("cc", "㏄"), ("cd", "㏅"), ("cm", "㎝"), ("cm2", "㎠"),
   ("cm3", "㎤"), ("dB", "㏈"), ("da", "㍲"), ("dl", "㎗"), ("dm", "㍷"), ("dm2", "㍸"), ("dm3", "㍹"),
   ("dz", "ǆǳ"), ("eV", "㋎"), ("erg", "㋍"), ("ff", "ﬀ"), ("ffi", "ﬃ"), ("ffl", "ﬄ"),
   ("fi", "ﬁ"), ("fl", "ﬂ"), ("fm", "㎙"), ("gal", "㏿"), ("hPa", "㍱"), ("ha", "㏊"), ("ii", "ⅱ"),
   ("iii", "ⅲ"), ("ij", "ĳ"), ("in", "㏌"), ("iv", "ⅳ"), ("ix", "ⅸ"), ("kA", "㎄"), ("kHz", "㎑"),
   ("kPa", "㎪"), ("kV", "㎸"), ("kW", "㎾"), ("kcal", "㎉"), ("kg", "㎏"), ("kl", "㎘"), ("km", "㎞"),
   ("km2", "㎢"), ("km3", "㎦"), ("kt", "㏏"), ("kΩ", "㏀"), ("lj", "ǉ"), ("lm", "㏐"), ("ln", "㏑"),
   ("log", "㏒"), ("lx", "㏓"), ("l·", "ŀ")]

/-- Ligatures, units and abbreviations, the others. -/
def unitSpellings : List SpellingRow :=
  [("m2", "㎡"), ("m3", "㎥"), ("mA", "㎃"), ("mV", "㎷"), ("mW", "㎽"), ("mb", "㏔"), ("mg", "㎎"),
   ("mil", "㏕"), ("ml", "㎖"), ("mm", "㎜"), ("mm2", "㎟"), ("mm3", "㎣"), ("mol", "㏖"),
   ("ms", "㎳"), ("m∕s", "㎧"), ("m∕s2", "㎨"), ("nA", "㎁"), ("nF", "㎋"), ("nV", "㎵"), ("nW", "㎻"),
   ("nj", "ǌ"), ("nm", "㎚"), ("ns", "㎱"), ("oV", "㍵"), ("p.m.", "㏘"), ("pA", "㎀"), ("pF", "㎊"),
   ("pV", "㎴"), ("pW", "㎺"), ("pc", "㍶"), ("ps", "㎰"), ("rad", "㎭"), ("rad∕s", "㎮"),
   ("rad∕s2", "㎯"), ("sr", "㏛"), ("st", "ﬅﬆ"), ("vi", "ⅵ"), ("vii", "ⅶ"), ("viii", "ⅷ"),
   ("xi", "ⅺ"), ("xii", "ⅻ"), ("ʼn", "ŉ"), ("μA", "㎂"), ("μF", "㎌"), ("μV", "㎶"), ("μW", "㎼"),
   ("μg", "㎍"), ("μl", "㎕"), ("μm", "㎛"), ("μs", "㎲")]

/-- Every row of the table. -/
def spellings : List SpellingRow :=
  singleSpellings ++ numberSpellings ++ bracketSpellings ++ ligatureSpellings ++ unitSpellings

/-- A code point in its plain spelling; ASCII, and what no row has, stays as it is. -/
def CodePoint.spelling (c : CodePoint) : Text :=
  if c.value < 0x80 then [c]
  else
    match spellings.find? fun (_, characters) => c.satisfies (characters.toList.contains ·) with
    | some (spelled, _) => Text.ofString spelled
    | none => [c]

end Stencil

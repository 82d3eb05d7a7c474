import RepoAtlas.Text.Ranges

/-!
# Parts of characters

The characters of names that stand for others by the Unicode standard: the variant of a letter for
the letter, a letter with marks for the letter and its marks. A row is for consecutive characters
and begins with the code of the first of them. Syllables of Hangul are not listed, they follow a rule,
and what two characters become is listed only once, with the second of them.
-/

namespace RepoAtlas.Text

/-- Arabic letters and marks, told by Latin letters in the order of their codes from U+0621 on. -/
def arabic (s : String) : String :=
  String.ofList (s.toList.map fun c => if c.isAlpha then Char.ofNat (c.toNat + 0x5E0) else c)

/-- Characters that stand for one other: a row holds these others one after the other. -/
def variantRows : List (Nat × String) := [
  (0xAA, "a"), (0xB5, "μ"), (0xBA, "o"), (0x17F, "s"), (0x2B0, "hɦjrɹɻʁwy"), (0x2E0, "ɣlsxʕ"),
  (0x340, "\u0300\u0301"), (0x343, "\u0313"), (0x374, "ʹ"), (0x387, "·"), (0x3D0, "βθΥ"), (0x3D5, "φπ"),
  (0x3F0, "κρς"), (0x3F4, "Θε"), (0x3F9, "Σ"), (0x10FC, "ნ"), (0x1D2C, "AÆB"), (0x1D30, "DEƎGHIJKLMN"),
  (0x1D3C, "OȢPRTUWaɐɑᴂbdeəɛɜg"), (0x1D4F, "kmŋoɔᴖᴗptuᴝɯvᴥβγδφχiruvβγρφχ"), (0x1D78, "н"),
  (0x1D9B, "ɒcɕðɜfɟɡɥɨɩɪᵻʝɭᶅʟɱɰɲɳɴɵɸʂʃƫʉʊᴜʋʌzʐʑʒθ"), (0x1FBE, "ι"), (0x2071, "i"), (0x207F, "n"),
  (0x2090, "aeoxəhklmnpst"), (0x2102, "C"), (0x2107, "Ɛ"), (0x210A, "gHHHhħIILl"), (0x2115, "N"),
  (0x2119, "PQRRR"), (0x2124, "Z"), (0x2126, "Ω"), (0x2128, "Z"), (0x212A, "K"), (0x212C, "BC"), (0x212F, "eEF"),
  (0x2133, "Mo\u05d0\u05d1\u05d2\u05d3i"), (0x213C, "πγΓΠ"), (0x2145, "Ddeij"), (0x2160, "I"), (0x2164, "V"),
  (0x2169, "X"), (0x216C, "LCDMi"), (0x2174, "v"), (0x2179, "x"), (0x217C, "lcdm"), (0x2C7C, "jV"), (0x2D6F, "ⵡ"),
  (0x3038, "十卄卅"),
  (0x3131, "ᄀᄁᆪᄂᆬᆭᄃᄄᄅᆰᆱᆲᆳᆴᆵᄚᄆᄇᄈᄡᄉᄊᄋᄌᄍᄎᄏᄐᄑ하ᅢᅣᅤᅥᅦᅧᅨᅩᅪᅫᅬᅭᅮᅯᅰᅱᅲᅳᅴᅵᅠᄔᄕᇇᇈᇌᇎᇓᇗᇙᄜᇝᇟᄝᄞᄠᄢᄣᄧᄩᄫᄬᄭᄮᄯᄲᄶᅀᅇᅌᇱᇲᅗᅘᅙᆄᆅᆈᆑᆒᆔᆞᆡ"),
  (0xA69C, "ъь"), (0xA770, "ꝯ"), (0xA7F2, "CFQ"), (0xA7F8, "Ħœ"), (0xAB5C, "ꜧꬷɫꭒ"), (0xAB69, "ʍ"),
  (0xF900, "豈更車賈滑串句龜龜契金喇奈懶癩羅蘿螺裸邏樂洛烙珞落酪駱亂卵欄爛蘭鸞嵐濫藍襤拉臘蠟廊朗浪狼郎來冷勞擄櫓"),
  (0xF932, "爐盧老蘆虜路露魯鷺碌祿綠菉錄鹿論壟弄籠聾牢磊賂雷壘屢樓淚漏累縷陋勒肋凜凌稜綾菱陵讀拏樂諾丹寧怒率異北"),
  (0xF964, "磻便復不泌數索參塞省葉說殺辰沈拾若掠略亮兩凉梁糧良諒量勵呂女廬旅濾礪閭驪麗黎力曆歷轢年憐戀撚漣煉璉秊"),
  (0xF996, "練聯輦蓮連鍊列劣咽烈裂說廉念捻殮簾獵令囹寧嶺怜玲瑩羚聆鈴零靈領例禮醴隸惡了僚寮尿料樂燎療蓼遼龍暈阮劉"),
  (0xF9C8, "杻柳流溜琉留硫紐類六戮陸倫崙淪輪律慄栗率隆利吏履易李梨泥理痢罹裏裡里離匿溺吝燐璘藺隣鱗麟林淋臨立笠粒"),
  (0xF9FA, "狀炙識什茶刺切度拓糖宅洞暴輻行降見廓兀嗀"), (0xFA10, "塚"), (0xFA12, "晴"),
  (0xFA15, "凞猪益礼神祥福靖精羽"), (0xFA20, "蘒"), (0xFA22, "諸"), (0xFA25, "逸都"),
  (0xFA2A, "飯飼館鶴郞隷侮僧免勉勤卑喝嘆器塀墨層屮悔慨憎懲敏既暑梅海渚漢煮爫琢碑社祉祈祐祖祝禍禎穀突節練縉繁署者"),
  (0xFA5C, "臭艹艹著褐視謁謹賓贈辶逸難響頻恵𤋮舘"),
  (0xFA70, "並况全侀充冀勇勺喝啕喙嗢塚墳奄奔婢嬨廒廙彩徭惘慎愈憎慠懲戴揄搜摒敖晴朗望杖歹殺流滛滋漢瀞煮瞧爵犯猪瑱"),
  (0xFAA2, "甆画瘝瘟益盛直睊着磌窱節类絛練缾者荒華蝹襁覆視調諸請謁諾諭謹變贈輸遲醙鉶陼難靖韛響頋頻鬒龜𢡊𢡄𣏕㮝䀘"),
  (0xFAD4, "䀹𥉉𥳐𧻓齃龎"), (0xFB20, "\u05e2\u05d0\u05d3\u05d4\u05db\u05dc\u05dd\u05e8\u05ea"),
  (0xFB50, "\u0671\u0671\u067b\u067b\u067b\u067b\u067e\u067e\u067e\u067e\u0680\u0680\u0680\u0680\u067a\u067a"),
  (0xFB60, "\u067a\u067a\u067f\u067f\u067f\u067f\u0679\u0679\u0679\u0679\u06a4\u06a4\u06a4\u06a4\u06a6\u06a6"),
  (0xFB70, "\u06a6\u06a6\u0684\u0684\u0684\u0684\u0683\u0683\u0683\u0683\u0686\u0686\u0686\u0686\u0687\u0687"),
  (0xFB80, "\u0687\u0687\u068d\u068d\u068c\u068c\u068e\u068e\u0688\u0688\u0698\u0698\u0691\u0691\u06a9\u06a9"),
  (0xFB90, "\u06a9\u06a9\u06af\u06af\u06af\u06af\u06b3\u06b3\u06b3\u06b3\u06b1\u06b1\u06b1\u06b1\u06ba\u06ba"),
  (0xFBA0, "\u06bb\u06bb\u06bb\u06bb"), (0xFBA6, "\u06c1\u06c1\u06c1\u06c1\u06be\u06be\u06be\u06be\u06d2\u06d2"),
  (0xFBD3, "\u06ad\u06ad\u06ad\u06ad\u06c7\u06c7\u06c6\u06c6\u06c8\u06c8"),
  (0xFBDE, "\u06cb\u06cb\u06c5\u06c5\u06c9\u06c9\u06d0\u06d0\u06d0\u06d0"), (0xFBE8, arabic "ii"),
  (0xFBFC, "\u06cc\u06cc\u06cc\u06cc"), (0xFE33, "__"), (0xFE4D, "___"), (0xFE80, arabic "A"),
  (0xFE8D, arabic "GGHHHHIIJJJJKKKKLLLLMMMMNNNNOOPPQQRRSSSSTTTTUUUUVVVVWWWWXXXXYYYYZZZZaaaabbbbccccddddeeeeffffg"),
  (0xFEEA, arabic "ggghhiijjjj"), (0xFF10, "0123456789"), (0xFF21, "ABCDEFGHIJKLMNOPQRSTUVWXYZ"), (0xFF3F, "_"),
  (0xFF41, "abcdefghijklmnopqrstuvwxyz"),
  (0xFF66, "ヲァィゥェォャュョッーアイウエオカキクケコサシスセソタチツテトナニヌネノハヒフヘホマミムメモヤユヨラ"),
  (0xFF98, "リルレロワン\u3099\u309aᅠᄀᄁᆪᄂᆬᆭᄃᄄᄅᆰᆱᆲᆳᆴᆵᄚᄆᄇᄈᄡᄉᄊᄋᄌᄍᄎᄏᄐᄑᄒ"), (0xFFC2, "ᅡᅢᅣᅤᅥᅦ"), (0xFFCA, "ᅧᅨᅩᅪᅫᅬ"),
  (0xFFD2, "ᅭᅮᅯᅰᅱᅲ"), (0xFFDA, "ᅳᅴᅵ"), (0x10781, "ːˑæʙɓ"),
  (0x10787, "ʣꭦʥʤɖɗᶑɘɞʩɤɢɠʛħʜɧʄʪʫɬ𝼄ꞎɮ𝼅ʎ𝼆øɶɷqɺ𝼈ɽɾʀʨʦꭧʧʈⱱ"), (0x107B2, "ʏʡʢʘǀǁǂ𝼊𝼞"),
  (0x1D400, "ABCDEFGHIJKLMNOPQRSTUVWXYZabcdefghijklmnopqrstuvwxyzABCDEFGHIJKLMNOPQRSTUVWXYZabcdefg"),
  (0x1D456, "ijklmnopqrstuvwxyzABCDEFGHIJKLMNOPQRSTUVWXYZabcdefghijklmnopqrstuvwxyzA"), (0x1D49E, "CD"),
  (0x1D4A2, "G"), (0x1D4A5, "JK"), (0x1D4A9, "NOPQ"), (0x1D4AE, "STUVWXYZabcd"), (0x1D4BB, "f"),
  (0x1D4BD, "hijklmn"), (0x1D4C5, "pqrstuvwxyzABCDEFGHIJKLMNOPQRSTUVWXYZabcdefghijklmnopqrstuvwxyzAB"),
  (0x1D507, "DEFG"), (0x1D50D, "JKLMNOPQ"), (0x1D516, "STUVWXY"), (0x1D51E, "abcdefghijklmnopqrstuvwxyzAB"),
  (0x1D53B, "DEFG"), (0x1D540, "IJKLM"), (0x1D546, "O"), (0x1D54A, "STUVWXY"),
  (0x1D552, "abcdefghijklmnopqrstuvwxyzABCDEFGHIJKLMNOPQRSTUVWXYZabcdefghijklmnopqrstuvwxyzABCDEFGHIJKLMNOPQRSTU"),
  (0x1D5B5, "VWXYZabcdefghijklmnopqrstuvwxyzABCDEFGHIJKLMNOPQRSTUVWXYZabcdefghijklmnopqrstuvwxyzABCDEFGHIJKLMNOP"),
  (0x1D618, "QRSTUVWXYZabcdefghijklmnopqrstuvwxyzABCDEFGHIJKLMNOPQRSTUVWXYZabcdefghijklmnopqrstuvwxyzABCDEFGHIJK"),
  (0x1D67B, "LMNOPQRSTUVWXYZabcdefghijklmnopqrstuvwxyzıȷ"), (0x1D6A8, "ΑΒΓΔΕΖΗΘΙΚΛΜΝΞΟΠΡΘΣΤΥΦΧΨΩ"),
  (0x1D6C2, "αβγδεζηθικλμνξοπρςστυφχψω"), (0x1D6DC, "εθκφρπΑΒΓΔΕΖΗΘΙΚΛΜΝΞΟΠΡΘΣΤΥΦΧΨΩ"),
  (0x1D6FC, "αβγδεζηθικλμνξοπρςστυφχψω"), (0x1D716, "εθκφρπΑΒΓΔΕΖΗΘΙΚΛΜΝΞΟΠΡΘΣΤΥΦΧΨΩ"),
  (0x1D736, "αβγδεζηθικλμνξοπρςστυφχψω"), (0x1D750, "εθκφρπΑΒΓΔΕΖΗΘΙΚΛΜΝΞΟΠΡΘΣΤΥΦΧΨΩ"),
  (0x1D770, "αβγδεζηθικλμνξοπρςστυφχψω"), (0x1D78A, "εθκφρπΑΒΓΔΕΖΗΘΙΚΛΜΝΞΟΠΡΘΣΤΥΦΧΨΩ"),
  (0x1D7AA, "αβγδεζηθικλμνξοπρςστυφχψω"), (0x1D7C4, "εθκφρπϜϝ"),
  (0x1D7CE, "01234567890123456789012345678901234567890123456789"), (0x1EE00, arabic "GHLO"),
  (0x1EE05, arabic "hRMWjcdefSYaUbQTJKNPVXZ"), (0x1EE1C, "\u066e\u06ba\u06a1\u066f"), (0x1EE21, arabic "HL"),
  (0x1EE24, arabic "g"), (0x1EE27, arabic "M"), (0x1EE29, arabic "jcdefSYaUb"), (0x1EE34, arabic "TJKN"),
  (0x1EE39, arabic "V"), (0x1EE3B, arabic "Z"), (0x1EE42, arabic "L"), (0x1EE47, arabic "M"),
  (0x1EE49, arabic "j"), (0x1EE4B, arabic "d"), (0x1EE4D, arabic "fSY"), (0x1EE51, arabic "Ub"),
  (0x1EE54, arabic "T"), (0x1EE57, arabic "N"), (0x1EE59, arabic "V"), (0x1EE5B, arabic "Z"), (0x1EE5D, "\u06ba"),
  (0x1EE5F, "\u066f"), (0x1EE61, arabic "HL"), (0x1EE64, arabic "g"), (0x1EE67, arabic "MWjc"),
  (0x1EE6C, arabic "efSYaUb"), (0x1EE74, arabic "TJKN"), (0x1EE79, arabic "VXZ"), (0x1EE7C, "\u066e"),
  (0x1EE7E, "\u06a1"), (0x1EE80, arabic "GHLOghRMWj"), (0x1EE8B, arabic "defSYaUbQTJKNPVXZ"),
  (0x1EEA1, arabic "HLO"), (0x1EEA5, arabic "hRMWj"), (0x1EEAB, arabic "defSYaUbQTJKNPVXZ"),
  (0x1FBF0, "0123456789"),
  (0x2F800, "丽丸乁𠄢你侮侻倂偺備僧像㒞𠘺免兔兤具𠔜㒹內再𠕋冗冤仌冬况𩇟凵刃㓟刻剆割剷㔕勇勉勤勺包匆北卉卑博即卽"),
  (0x2F831, "卿卿卿𠨬灰及叟𠭣叫叱吆咞吸呈周咢哶唐啓啣善善喙喫喳嗂圖嘆圗噑噴切壮城埴堍型堲報墬𡓤売壷夆多夢奢𡚨𡛪"),
  (0x2F862, "姬娛娧姘婦㛮㛼嬈嬾嬾𡧈寃寘寧寳𡬘寿将当尢㞁屠屮峀岍𡷤嵃𡷦嵮嵫嵼巡巢㠯巽帨帽幩㡢𢆃㡼庰庳庶廊𪎒廾𢌱𢌱"),
  (0x2F893, "舁弢弢㣇𣊸𦇚形彫㣣徚忍志忹悁㤺㤜悔𢛔惇慈慌慎慌慺憎憲憤憯懞懲懶成戛扝抱拔捐𢬌挽拼捨掃揤𢯱搢揅掩㨮摩"),
  (0x2F8C4, "摾撝摷㩬敏敬𣀊旣書晉㬙暑㬈㫤冒冕最暜肭䏙朗望朡杞杓𣏃㭉柺枅桒梅𣑭梎栟椔㮝楂榣槪檨𣚣櫛㰘次𣢧歔㱎歲殟"),
  (0x2F8F5, "殺殻𣪍𡴋𣫺汎𣲼沿泍汧洖派海流浩浸涅𣴞洴港湮㴳滋滇𣻑淹潮𣽞𣾎濆瀹瀞瀛㶖灊災灷炭𠔥煅𤉣熜𤎫爨爵牐𤘈犀犕"),
  (0x2F926, "𤜵𤠔獺王㺬玥㺸㺸瑇瑜瑱璅瓊㼛甤𤰶甾𤲒異𢆟瘐𤾡𤾸𥁄㿼䀈直𥃳𥃲𥄙𥄳眞真真睊䀹瞋䁆䂖𥐝硎碌磌䃣𥘦祖𥚚𥛅福"),
  (0x2F957, "秫䄯穀穊穏𥥼𥪧𥪧竮䈂𥮫篆築䈧𥲀糒䊠糨糣紀𥾆絣䌁緇縂繅䌴𦈨𦉇䍙𦋙罺𦌾羕翺者𦓚𦔣聠𦖨聰𣍟䏕育脃䐋脾媵𦞧"),
  (0x2F988, "𦞵𣎓𣎜舁舄辞䑫芑芋芝劳花芳芽苦𦬼若茝荣莭茣莽菧著荓菊菌菜𦰶𦵫𦳕䔫蓱蓳蔖𧏊蕤𦼬䕝䕡𦾱𧃒䕫虐虜虧虩蚩蚈"),
  (0x2F9B9, "蜎蛢蝹蜨蝫螆䗗蟡蠁䗹衠衣𧙧裗裞䘵裺㒻𧢮𧥦䚾䛇誠諭變豕𧲨貫賁贛起𧼯𠠄跋趼跰𠣞軔輸𨗒𨗭邔郱鄑𨜮鄛鈸鋗鋘"),
  (0x2F9EA, "鉼鏹鐕𨯺開䦕閷𨵷䧦雃嶲霣𩅅𩈚䩮䩶韠𩐊䪲𩒖頋頋頩𩖶飢䬳餩馧駂駾䯎𩬰鬒鱀鳽䳎䳭鵧𪃎䳸𪄅𪈎𪊑麻䵖黹黾鼅鼏"),
  (0x2FA1B, "鼖鼻𪘀")]

/-- Characters that stand for several others without being what two become: a row holds the others
divided by blanks. -/
def compoundRows : List (Nat × String) := [
  (0x132, "IJ ij"), (0x13F, "L· l·"), (0x149, "ʼn"), (0x1C4, "DZ\u030c Dz\u030c dz\u030c LJ Lj lj NJ Nj nj"),
  (0x1F1, "DZ Dz dz"), (0x344, "\u0308\u0301"), (0x587, "եւ"), (0x675, arabic "G\u0674 h\u0674"),
  (0x677, "\u06c7\u0674"), (0x678, arabic "j\u0674"),
  (0x958, "क\u093c ख\u093c ग\u093c ज\u093c ड\u093c ढ\u093c फ\u093c य\u093c"), (0x9DC, "ড\u09bc ঢ\u09bc"),
  (0x9DF, "য\u09bc"), (0xA33, "ਲ\u0a3c"), (0xA36, "ਸ\u0a3c"), (0xA59, "ਖ\u0a3c ਗ\u0a3c ਜ\u0a3c"),
  (0xA5E, "ਫ\u0a3c"), (0xB5C, "ଡ\u0b3c ଢ\u0b3c"), (0xE33, "\u0e4dา"), (0xEB3, "\u0ecdາ"), (0xEDC, "ຫນ ຫມ"),
  (0xF43, "ག\u0fb7"), (0xF4D, "ཌ\u0fb7"), (0xF52, "ད\u0fb7"), (0xF57, "བ\u0fb7"), (0xF5C, "ཛ\u0fb7"),
  (0xF69, "ཀ\u0fb5"), (0xF73, "\u0f71\u0f72"),
  (0xF75, "\u0f71\u0f74 \u0fb2\u0f80 \u0fb2\u0f71\u0f80 \u0fb3\u0f80 \u0fb3\u0f71\u0f80"),
  (0xF81, "\u0f71\u0f80"), (0xF93, "\u0f92\u0fb7"), (0xF9D, "\u0f9c\u0fb7"), (0xFA2, "\u0fa1\u0fb7"),
  (0xFA7, "\u0fa6\u0fb7"), (0xFAC, "\u0fab\u0fb7"), (0xFB9, "\u0f90\u0fb5"), (0x1E9A, "aʾ"), (0x1F71, "α\u0301"),
  (0x1F73, "ε\u0301"), (0x1F75, "η\u0301"), (0x1F77, "ι\u0301"), (0x1F79, "ο\u0301"), (0x1F7B, "υ\u0301"),
  (0x1F7D, "ω\u0301"), (0x1FBB, "Α\u0301"), (0x1FC9, "Ε\u0301"), (0x1FCB, "Η\u0301"), (0x1FD3, "ι\u0308\u0301"),
  (0x1FDB, "Ι\u0301"), (0x1FE3, "υ\u0308\u0301"), (0x1FEB, "Υ\u0301"), (0x1FF9, "Ο\u0301"), (0x1FFB, "Ω\u0301"),
  (0x212B, "A\u030a"), (0x2161, "II III IV"), (0x2165, "VI VII VIII IX"), (0x216A, "XI XII"),
  (0x2171, "ii iii iv"), (0x2175, "vi vii viii ix"), (0x217A, "xi xii"), (0x309F, "より"), (0x30FF, "コト"),
  (0xFB00, "ff fi fl ffi ffl st st"), (0xFB13, "մն մե մի վն մխ"), (0xFB1D, "\u05d9\u05b4"),
  (0xFB1F, "\u05f2\u05b7"),
  (0xFB2A, "\u05e9\u05c1 \u05e9\u05c2 \u05e9\u05bc\u05c1 \u05e9\u05bc\u05c2 \u05d0\u05b7 \u05d0\u05b8"),
  (0xFB30, "\u05d0\u05bc \u05d1\u05bc \u05d2\u05bc \u05d3\u05bc \u05d4\u05bc \u05d5\u05bc \u05d6\u05bc"),
  (0xFB38, "\u05d8\u05bc \u05d9\u05bc \u05da\u05bc \u05db\u05bc \u05dc\u05bc"), (0xFB3E, "\u05de\u05bc"),
  (0xFB40, "\u05e0\u05bc \u05e1\u05bc"), (0xFB43, "\u05e3\u05bc \u05e4\u05bc"),
  (0xFB46, "\u05e6\u05bc \u05e7\u05bc \u05e8\u05bc \u05e9\u05bc \u05ea\u05bc \u05d5\u05b9 \u05d1\u05bf"),
  (0xFB4D, "\u05db\u05bf \u05e4\u05bf \u05d0\u05dc"), (0xFBA4, arabic "\u06d5t \u06d5t"),
  (0xFBB0, arabic "\u06d2t \u06d2t"), (0xFBDD, "\u06c7\u0674"),
  (0xFBEA, arabic "jtG jtG jt\u06d5 jt\u06d5 jth jth jt\u06c7 jt\u06c7 jt\u06c6 jt\u06c6 jt\u06c8 jt\u06c8"),
  (0xFBF6, arabic "jt\u06d0 jt\u06d0 jt\u06d0 jti jti jti"),
  (0xFC00, arabic "jtL jtM jte jti jtj HL HM HN He Hi Hj JL JM JN Je Ji Jj KL Ke Ki Kj LM Le ML Me NL NM Ne SL"),
  (0xFC1D, arabic "SM SN Se UM Ue VL VM VN Ve WM We Xe YL Ye ZL Ze aL aM aN ae ai aj bM be bi bj cG cL cM cN cd"),
  (0xFC3C, arabic "ce ci cj dL dM dN de di dj eL eM eN ee ei ej fL fM fN fe fi fj gL ge gi gj jL jM jN je ji jj"),
  (0xFC5B, arabic "P\u0670 Q\u0670 i\u0670"),
  (0xFC64, arabic "jtQ jtR jte jtf jti jtj HQ HR He Hf Hi Hj JQ JR Je Jf Ji Jj KQ KR Ke Kf Ki Kj ai aj bi bj cG"),
  (0xFC81, arabic "cd ce ci cj de di dj eG ee fQ fR fe ff fi fj i\u0670 jQ jR je jf ji jj jtL jtM jtN jte jtg HL"),
  (0xFC9D, arabic "HM HN He Hg JL JM JN Je Jg Ke LM Le ML Me NL Ne SL SM SN Se UM UN Ue VL VM VN Ve WM Xe YL Ye"),
  (0xFCBC, arabic "ZL Ze aL aM aN ae bM be cL cM cN cd ce dL dM dN de dg eL eM eN ee fL fM fN fe fg gL ge"),
  (0xFCD9, arabic "g\u0670 jL jM jN je jg jte jtg He Hg Je Jg Ke Kg Se Sg Te Tg cd ce de fe fg je jg \u0640nq"),
  (0xFCF3, arabic "\u0640oq \u0640pq Wi Wj Yi Yj Zi Zj Si Sj Ti Tj Mi Mj Li Lj Ni Nj Ui Uj Vi Vj TL TM TN Te TQ"),
  (0xFD0E, arabic "SQ UQ VQ Wi Wj Yi Yj Zi Zj Si Sj Ti Tj Mi Mj Li Lj Ni Nj Ui Uj Vi Vj TL TM TN Te TQ SQ UQ VQ"),
  (0xFD2D, arabic "TL TM TN Te Sg Tg We SL SM SN TL TM TN We Xe Gk Gk"),
  (0xFD50, arabic "JLe JML JML JMe JNe JeL JeM JeN LeM LeM Mej Mei SML SLM SLi SeM SeM SeL See See UMM UMM Uee"),
  (0xFD67, arabic "TMe TMe TLj TeN TeN Tee Tee VMi VNe VNe WeM WeM Wee Wej YLe Yee Yee Yei Zee Zej Zei aNe aNe"),
  (0xFD7E, arabic "beM bee dMe dMj dMi dLL dLL dNe dNe deM deM eML eMe eMj eLM eLe eNL eNe"),
  (0xFD92, arabic "eLN geL gee fMe fMi fLe fLe fLi fej fei jee jee HNj JLj JLi JNj JNi Jej Jei Lej LMi Lei SNi"),
  (0xFDA9, arabic "UMj TMj VMj dLj dej jMj jLj jej eej bej fMj beM dMe Yej cej fLM eNj dLe cee dLe fLM LMj MLj"),
  (0xFDC0, arabic "eLj aej HMj cee YLe Uee SNj fLj"),
  (0xFDF0, arabic "Ud\u06d2 bd\u06d2 Gddg GcHQ eMeO UdYe QShd Ydjg hSde Udi"), (0xFE71, arabic "\u0640k"),
  (0xFE77, arabic "\u0640n"), (0xFE79, arabic "\u0640o"), (0xFE7B, arabic "\u0640p"), (0xFE7D, arabic "\u0640q"),
  (0xFE7F, arabic "\u0640r"), (0xFE81, arabic "Gs Gs Gt Gt ht ht Gu Gu jt jt jt jt"),
  (0xFEF5, arabic "dGs dGs dGt dGt dGu dGu dG dG")]

/-- What becomes one character with a second one. A row begins with the code of the second one and
holds first characters, each followed by what the two become. -/
def unionRows : List (Nat × String) := [
  (0x300, "AÀEÈIÌNǸOÒUÙWẀYỲaàeèiìnǹoòuùwẁyỳÂẦÊỀÔỒÜǛâầêềôồüǜĂẰăằĒḔēḕŌṐōṑƠỜơờƯỪưừΑᾺΕῈΗῊΙῚΟῸΥῪΩῺ"),
  (0x300, "αὰεὲηὴιὶοὸυὺωὼϊῒϋῢЕЀИЍеѐиѝἀἂἁἃἈἊἉἋἐἒἑἓἘἚἙἛἠἢἡἣἨἪἩἫἰἲἱἳἸἺἹἻὀὂὁὃὈὊὉὋὐὒὑὓὙὛὠὢὡὣὨὪὩὫ"),
  (0x301, "AÁCĆEÉGǴIÍKḰLĹMḾNŃOÓPṔRŔSŚUÚWẂYÝZŹaácćeégǵiíkḱlĺmḿnńoópṕrŕsśuúwẃyýzźÂẤÅǺÆǼÇḈÊẾÏḮÔỐ"),
  (0x301, "ÕṌØǾÜǗâấåǻæǽçḉêếïḯôốõṍøǿüǘĂẮăắĒḖēḗŌṒōṓŨṸũṹƠỚơớƯỨưứΑΆΕΈΗΉΙΊΟΌΥΎΩΏαάεέηήιίοόυύωώϊΐϋΰ"),
  (0x301, "ϒϓГЃКЌгѓкќἀἄἁἅἈἌἉἍἐἔἑἕἘἜἙἝἠἤἡἥἨἬἩἭἰἴἱἵἸἼἹἽὀὄὁὅὈὌὉὍὐὔὑὕὙὝὠὤὡὥὨὬὩὭ"),
  (0x302, "AÂCĈEÊGĜHĤIÎJĴOÔSŜUÛWŴYŶZẐaâcĉeêgĝhĥiîjĵoôsŝuûwŵyŷzẑẠẬạậẸỆẹệỌỘọộ"),
  (0x303, "AÃEẼIĨNÑOÕUŨVṼYỸaãeẽiĩnñoõuũvṽyỹÂẪÊỄÔỖâẫêễôỗĂẴăẵƠỠơỡƯỮưữ"),
  (0x304, "AĀEĒGḠIĪOŌUŪYȲaāeēgḡiīoōuūyȳÄǞÆǢÕȬÖȪÜǕäǟæǣõȭöȫüǖǪǬǫǭȦǠȧǡȮȰȯȱΑᾹΙῙΥῩαᾱιῑυῡИӢУӮиӣуӯḶḸ"),
  (0x304, "ḷḹṚṜṛṝ"), (0x306, "AĂEĔGĞIĬOŎUŬaăeĕgğiĭoŏuŭȨḜȩḝΑᾸΙῘΥῨαᾰιῐυῠАӐЕӖЖӁИЙУЎаӑеӗжӂийуўẠẶạặ"),
  (0x307, "AȦBḂCĊDḊEĖFḞGĠHḢIİMṀNṄOȮPṖRṘSṠTṪWẆXẊYẎZŻaȧbḃcċdḋeėfḟgġhḣmṁnṅoȯpṗrṙsṡtṫwẇxẋyẏzżŚṤśṥ"),
  (0x307, "ŠṦšṧſẛṢṨṣṩ"),
  (0x308, "AÄEËHḦIÏOÖUÜWẄXẌYŸaäeëhḧiïoötẗuüwẅxẍyÿÕṎõṏŪṺūṻΙΪΥΫιϊυϋϒϔІЇАӒЕЁЖӜЗӞИӤОӦУӰЧӴЫӸЭӬаӓеё"),
  (0x308, "жӝзӟиӥоӧуӱчӵыӹэӭіїӘӚәӛӨӪөӫ"), (0x309, "AẢEẺIỈOỎUỦYỶaảeẻiỉoỏuủyỷÂẨÊỂÔỔâẩêểôổĂẲăẳƠỞơởƯỬưử"),
  (0x30A, "AÅUŮaåuůwẘyẙ"), (0x30B, "OŐUŰoőuűУӲуӳ"),
  (0x30C, "AǍCČDĎEĚGǦHȞIǏKǨLĽNŇOǑRŘSŠTŤUǓZŽaǎcčdďeěgǧhȟiǐjǰkǩlľnňoǒrřsštťuǔzžÜǙüǚƷǮʒǯ"),
  (0x30F, "AȀEȄIȈOȌRȐUȔaȁeȅiȉoȍrȑuȕѴѶѵѷ"), (0x311, "AȂEȆIȊOȎRȒUȖaȃeȇiȋoȏrȓuȗ"),
  (0x313, "ΑἈΕἘΗἨΙἸΟὈΩὨαἀεἐηἠιἰοὀρῤυὐωὠ"), (0x314, "ΑἉΕἙΗἩΙἹΟὉΡῬΥὙΩὩαἁεἑηἡιἱοὁρῥυὑωὡ"), (0x31B, "OƠUƯoơuư"),
  (0x323, "AẠBḄDḌEẸHḤIỊKḲLḶMṂNṆOỌRṚSṢTṬUỤVṾWẈYỴZẒaạbḅdḍeẹhḥiịkḳlḷmṃnṇoọrṛsṣtṭuụvṿwẉyỵzẓƠỢơợƯỰ"), (0x323, "ưự"),
  (0x324, "UṲuṳ"), (0x325, "AḀaḁ"), (0x326, "SȘTȚsștț"),
  (0x327, "CÇDḐEȨGĢHḨKĶLĻNŅRŖSŞTŢcçdḑeȩgģhḩkķlļnņrŗsştţ"), (0x328, "AĄEĘIĮOǪUŲaąeęiįoǫuų"),
  (0x32D, "DḒEḘLḼNṊTṰUṶdḓeḙlḽnṋtṱuṷ"), (0x32E, "HḪhḫ"), (0x330, "EḚIḬUṴeḛiḭuṵ"),
  (0x331, "BḆDḎKḴLḺNṈRṞTṮZẔbḇdḏhẖkḵlḻnṉrṟtṯzẕ"),
  (0x342, "αᾶηῆιῖυῦωῶϊῗϋῧἀἆἁἇἈἎἉἏἠἦἡἧἨἮἩἯἰἶἱἷἸἾἹἿὐὖὑὗὙὟὠὦὡὧὨὮὩὯ"),
  (0x345, "ΑᾼΗῌΩῼάᾴήῄαᾳηῃωῳώῴἀᾀἁᾁἂᾂἃᾃἄᾄἅᾅἆᾆἇᾇἈᾈἉᾉἊᾊἋᾋἌᾌἍᾍἎᾎἏᾏἠᾐἡᾑἢᾒἣᾓἤᾔἥᾕἦᾖἧᾗἨᾘἩᾙἪᾚἫᾛἬᾜἭᾝἮᾞἯᾟ"),
  (0x345, "ὠᾠὡᾡὢᾢὣᾣὤᾤὥᾥὦᾦὧᾧὨᾨὩᾩὪᾪὫᾫὬᾬὭᾭὮᾮὯᾯὰᾲὴῂὼῲᾶᾷῆῇῶῷ"), (0x653, "\u0627\u0622"),
  (0x654, "\u0627\u0623\u0648\u0624\u064a\u0626\u06c1\u06c2\u06d2\u06d3\u06d5\u06c0"), (0x655, "\u0627\u0625"),
  (0x93C, "नऩरऱळऴ"), (0x9BE, "\u09c7\u09cb"), (0x9D7, "\u09c7\u09cc"), (0xB3E, "\u0b47\u0b4b"),
  (0xB56, "\u0b47\u0b48"), (0xB57, "\u0b47\u0b4c"), (0xBBE, "\u0bc6\u0bca\u0bc7\u0bcb"),
  (0xBD7, "ஒஔ\u0bc6\u0bcc"), (0xC56, "\u0c46\u0c48"), (0xCC2, "\u0cc6\u0cca"),
  (0xCD5, "\u0cbf\u0cc0\u0cc6\u0cc7\u0cca\u0ccb"), (0xCD6, "\u0cc6\u0cc8"), (0xD3E, "\u0d46\u0d4a\u0d47\u0d4b"),
  (0xD57, "\u0d46\u0d4c"), (0xDCA, "\u0dd9\u0dda\u0ddc\u0ddd"), (0xDCF, "\u0dd9\u0ddc"),
  (0xDDF, "\u0dd9\u0dde"), (0x102E, "ဥဦ"),
  (0x1B35, "ᬅᬆᬇᬈᬉᬊᬋᬌᬍᬎᬑᬒ\u1b3a\u1b3b\u1b3c\u1b3d\u1b3e\u1b40\u1b3f\u1b41\u1b42\u1b43"),
  (0x3099, "うゔかがきぎくぐけげこごさざしじすずせぜそぞただちぢつづてでとどはばひびふぶへべほぼゝゞウヴカガキギクグケゲコゴサザシジスズセゼソゾタダチヂツヅテデトドハバヒビフブ"),
  (0x3099, "ヘベホボワヷヰヸヱヹヲヺヽヾ"), (0x309A, "はぱひぴふぷへぺほぽハパヒピフプヘペホポ"), (0x110BA, "𑂙𑂚𑂛𑂜𑂥𑂫"), (0x11127, "𑄱𑄮𑄲𑄯"),
  (0x1133E, "𑍇𑍋"), (0x11357, "𑍇𑍌"), (0x114B0, "𑒹𑒼"), (0x114BA, "𑒹𑒻"), (0x114BD, "𑒹𑒾"), (0x115AF, "𑖸𑖺𑖹𑖻"),
  (0x11930, "𑤵𑤸")]

/-- The combining classes of marks, each with its characters by counts from U+0300 on. -/
def markClasses : List (Nat × Ranges) := List.map (fun (k, counts) => (k, .ofCounts 0x300 (numbersIn counts))) [
  (1, "52 5 6555 1 13 7 1001 2 4 3 10 2 3 2 59725 1 24758 5 20905 1 5320 3"), (6, "93424 2"),
  (7, "1596 1 127 1 127 1 127 1 127 1 255 1 127 1 890 1 2812 1 177 1 80 1 36219 1 26374 1 184 1 86 1 107 1 178 1 81 2
265 1 124 1 252 1 246 1 386 1 264 1 1022 1 52231 1"),
  (8, "11673 2"),
  (9, "1613 1 127 1 127 1 127 1 127 1 127 1 127 1 127 1 109 2 16 1 124 1 111 1 127 1 201 1 180 2 1753 2 30 1 157 1 653
1 227 1 101 2 70 2 4491 1 31366 1 37 1 151 1 142 1 108 1 309 1 246 1 24145 1 1542 1 41 1 14 1 57 1 121 2 139 1 116 1
180 1 98 1 244 1 127 1 252 1 127 1 118 1 116 1 269 1 259 2 161 1 83 1 18 1 81 1 421 1 260 2 81 1"),
  (10, "688 1"), (11, "689 1"), (12, "690 1"), (13, "691 1"), (14, "692 1"), (15, "693 1"), (16, "694 1"),
  (17, "695 1"), (18, "696 1 14 1"), (19, "697 2"), (20, "699 1"), (21, "700 1"), (22, "701 1"), (23, "703 1"),
  (24, "705 1"), (25, "706 1"), (26, "63518 1"), (27, "843 1 676 1"), (28, "844 1 676 1"), (29, "845 1 676 1"),
  (30, "792 1 53 1"), (31, "793 1 53 1"), (32, "794 1 53 1"), (33, "849 1"), (34, "850 1"), (35, "880 1"),
  (36, "1041 1"), (84, "2389 1"), (91, "2390 1"), (103, "2872 2"), (107, "2888 4"), (118, "3000 2"), (122, "3016 4"),
  (129, "3185 1"), (130, "3186 1 7 4 2 1"), (132, "3188 1"), (202, "33 2 4 2 6823 1"), (214, "6862 1"),
  (216, "27 1 3101 1 115243 2 7 5"), (218, "6906 1 4655 1"),
  (220, "22 4 2 5 2 4 2 11 5 4 10 3 3 2 4 4 2 2 566 1 4 1 4 1 6 6 2 1 26 1 143 2 5 1 2 1 131 1 6 1 2 1 67 1 2 1 2 3 1
2 1 1 3 1 1 1 1 1 1 1 169 1 10 1 91 3 61 3 51 5 15 1 2 1 2 1 3 3 6 1 2 2 87 1 1477 2 27 1 1 1 142 1 198 1 2221 1 220 1
102 1 53 6 2 1 1 2 2 2 5 1 161 1 360 5 2 4 13 1 212 1 7 1 4 1 41 1 3 1 1 1 744 1 3 4 34875 3 390 1 21362 7 975 1 226 1
1836 1 44 1 171 1 1119 2 3 1 1 4 50 1 1 1 49653 8 7 2 5956 7"),
  (222, "666 1 18 1 5003 1 5875 1"), (224, "11566 2"), (226, "118381 1"), (228, "686 1 4858 1 1357 2 4658 1"),
  (230, "0 21 40 8 1 1 3 3 3 3 4 1 3 1 7 13 275 5 266 4 1 3 2 6 6 2 1 2 2 1 20 1 75 8 59 2 2 5 1 2 119 7 2 4 1 1 2 2 2
2 67 1 1 2 1 2 3 1 2 1 1 3 1 1 1 1 1 1 1 2 160 7 1 1 34 4 1 9 1 3 1 5 106 1 3 4 42 5 5 14 2 2 1 2 1 3 6 3 1 2 2 5 81 1
1 2 169 1 1411 2 2 2 981 3 1149 1 348 1 220 1 93 8 51 5 6 2 4 2 2 5 1 4 156 1 1 7 348 3 7 2 4 1 19 1 3 2 198 2 1 7 1 2
4 37 5 1 2 1 721 2 2 4 3 2 4 1 5 1 1 1 6 1 3070 3 238 32 30831 1 4 10 32 2 80 2 494 18 446 1 1 2 3 2 5 2 1 1 21342 7 7
2 1350 5 1684 1 40 1 172 1 574 4 387 2 155 3 1 1 53 1 1 1 379 3 611 7 3 5 233 1 22225 7 26190 5 32 4 148 3 3515 7 1 17
2 7 1 2 1 5 261 7 375 1 61 4 1620 6"),
  (232, "21 1 4 1 61 1 6813 1 4661 1"), (233, "92 1 2 1 2 1 6809 1"), (234, "93 2 1 2 6763 1"), (240, "69 1")]

end RepoAtlas.Text

import RepoAtlas.Text.Search

/-!
# Names of characters

The names that the Unicode standard gives to characters of its blocks for Latin, Greek and Cyrillic
letters, punctuation, mathematical signs, arrows, lines and shapes, and the further names of control
characters. Of technical and enclosed signs, symbols and pictures there are the usual ones only. A row is for
consecutive characters: it holds the code of the first of them and the names, divided by semicolons or line
ends. Names have capitals, digits, blanks and hyphens. Other signs stand for words that recur, and a name after
an equals sign is for a capital letter and its small one.
-/

namespace RepoAtlas.Text

/-- What is divided by semicolons or line ends. -/
def itemsOf (s : String) : List String :=
  (split '\n' s).flatMap (split ';')

/-- The signs for the first words. Letters from U+0100 on stand for those that follow. -/
def wordSigns : String :=
  "abcdefghijklmnopqrstuvwxyz!#$%&()*+,./:<>?@[]^_|~"

/-- The words of names that recur, some of them several in a row with signs for words in them. -/
def nameWords : Array String := List.toArray <| itemsOf "CYRILLIC; SMALLf; WITH ;LATIN;Ĩf; LETTER ;GREEK;COMBINING 
 SIGN;RIGHT;LEFT; ARROW; AND ; BELOW;VERTICAL;DOWN;SMALL ;RIGHTWARDS;DOUBLE;HORIZONTAL;BLACK;LEFTWARDS;LOWER ;HEAVY
LIGHT;SQUARE;WHITE;DIAERESIS;ROMAN Ȁ ; Ŭě;STROKE; ABOVE; ʅ;+y ;BOX DRAWINGS ;UPPER ;CIRCUMFLEX;NOT ;cŝ;UP ;DOWNWARDS
TRIANGLE;+x ;QUADRANT;LESS-THAN;GREATER-THAN;SUPERSCRIPT ;UPWARDS;THREE;ʫ ;SUBSCRIPT;TILDE;DOT;cǻ;hs ;cƑ;-POINTING 
MINUS;DIGIT ;VULGAR ȕ;hdb; MARK;d āb;FOUR; sl; BAR;RING; OF;ELEMENTĒ;EQUIVALENTě; OR ;+s ;QUOTATIONČ;ONE;cDESCENDER
 SPACE; TO;+p ;+<;Ǵ ;TWO;FIVE;EQUALS;cǲ;cǷ;HOOK;k j;ě ;ƞĨ ; CAPITAL; OPERATOR;+o ; BLOCK;SEVEN;INVERTED ;cņ; DASH; Ɨ
ğ ; SEPARATOR;TRIPLE;țĨ ;ơcBARB ;Ē ;ʝ ;ʬSUBGROUP;DIAGONAL ;mj ;mk ; ũ; Ğu;SIX;deA;deO;dbA;dbO;MACRON;Ċƙ;cĂ;BREVE;ɿ ; ǁ
SHORT ;OMEGA;COPTICf;ha ; ƛ;DOES /;N-ARY ;NOT%;mt ;UPm;ũc; PARENTHESIS;COMMA;deI;dbI;oō;PLUS;cŃ;că(;cs ;ACUTE;dfUc; ǹ
EPSILON;UPSILON;gĨ ;cĤ;CHE;cTAIL; THOUSAND;MEDIUM ;ȵ ;CIRCLE;ENDĶ; ʒ;EQUAL; OR%;PRECEDES;SUCCEEDS;ĶOR%;CONTAINS;Ĝy;xĺ
xĻ;ĝy;+k ;+j ;ǆī;! zc; FILL;ćq?;,k ;ASTERISK;ři;HYPHEN;ZERO;EIGHT;NINE;ɴČ;deE;deU; ACCENT;ǻƆ;dbE;dbU;OGONEK;dfE
 LIGATURE ;dfL;LONG ; OVERLAY;Ȉƺ);TONOS;gbIOTA;DIALYTIKA;KOPPA;afGHE;co &;SINGLE; ǀ;Ę ;ELLIPSIS;LINE; Ȕ;u-LETTERĨ 
s-STRUCK;$Ġ;l FROMĐ; HARPOON; !l;| !;APPROXIMATELY; BUT ;NEITHER ;j ?;DIAMOND; UPć;ɵČ;SOLIDUS;COLON;LOWō;CURLY;ŝƆ
MIDDLE ;DIVISION; Ğđ;ALMOST;JOINER;ȗƐ;ALPHA;OMICRON;GAMMA;THETA;SIGMA;HUNDRED;afKA;afABKHASIAN ;kʮj;jʮk;BULLET;ANGLE
ă Ȓ;TIMES; ISOLATE;ʄ q; EIGHTHS;$FIFTY;ƙƻ;FORM;ȠȤ; WAVE; ıʭ;lcTIP ;CORNER;CLOCKWISE;lěĐ; PAIREDʏ; DASHEDl;ű AS ;UNION
SUBSET;SUPERSET;z ʡ;SQUARED ;Ŭěĕ;ƥ/Ĕ;coĐ AT Ūt &;cOVERBAR;ĳį ; ɶį ;*Œ;@Œ;sį ;*ARC ;Ǵī;ʇī;[ ,km;,jmw; RECTANGLE
ćPOINTER; [ CIRCULAR ARC;!ļc; TABULATION;DEVICE CONTROL ;ʀĲ ; zǯ; BRACKET;SOFT;DEGREE;CEDILLA;ƙQUARTER;HALF;~ QUARTERS
OVERLINE;CARON;ĭņ;TACK;BRIDGE;GRAVE;hj ǽ;ARROWHEAD;ARCHAIC ;SAMPI;NUMERAL;DIGAMMA;geIOTA;BETA;DELTA;KAPPA;šcƓ;g š
LUNATE ;UKRAINIAN ;YERU;afIOTIFIED ;afZHE;afEN;afHA;afŤ;SCHWA;-PER-EMĚ;PUNCTUATION;ƀ WIDTH;PRIME;FRACTION ;SLASH
DOTTED ;INVISIBLE;THE ;ț q;SCRIPT;Ňʃ;FIFTHS;$TEN;$ĘŦ;NORTH ;EAST;ȣȡ;SOUTH ;WEST;ANTICLOCKWISE ;ďc&;ƣʎ;lŜo &; OPEN-ʭ
MEMBER;ŎCONTAIN AS ;PRODUCT; ROOT;PARALLELě;ʯAND;ʯOR;INTERSECTION;CONTOURū; NOR;IMAGEĒ; OVER;MUCH ;Ʀ]ȳ;Ʀ^ȳ;ǕĒ;ǖĒ
MULTISET;z ʘ;ăĩ; SEMIDIRECT Ȭ;ĕŬ;ųp y;ų<y;Ŵp y;Ŵ<y;ŷyĻ;Ŷyĺ;İĺs;smjİ;İĻs;smkİ;İős;smtİ;SHADE;ʧ!ļ;AMPERSAND;APOSTROPHE
SEMICOLON;COMMERCIAL ;NO-BREAKĚ;CURRENCYi;COPYRIGHT; ORDINAL INDICATOR;ćsň ė;PILCROWi;MULTIPLICATION; TONEČ;g Ɠ Ƒ
g YPOGEGRAMMENI;HOMOTHETIC;ZIGZAG;STIGMA;BYELORUSSIAN-ȉI;LITTLE YUS;BIG YUS;afIZHITSA; THOUSANDSi; PNEUMATA
afSTRAIGHT U;PALOCHKA;afBARRED O;FIGURE; LOW-9 ė; HIGH-ʫ-9 ė;DAGGER;ă LEADER; POINT; EMBEDDING;POP DIRECTIONAL
 OVERRIDE;UNDERTIE;CHARACTER;ǮcQUILL;QUESTION;EXCLAMATION;QUADRUPLE;INHIBIT; SYMMETRIC SWAPPING;ACTIVATE
 ARABIC ǉ SHAPING; ĉSHAPES;RUPEEi; CONSTANT;PLANCKɽ;TURNED;INFORMATION; SOURCE;ŏSUMMATION;SANS-SERIFĨ ;ƞ ITALIC;SYMBOL
THIRDS;ƙEIGHTH;$ELEVEN;$TWELVE;lcLOOP;TOP SEMICIRCLEl;OPENļl; SQUIGGLEl;l ON PEDESTAL; ARROWS;THERE ;MEASURED;INTEGRAL
PROPORTION;ASYMPTOTICALLY%;ACTUALLY%;GEOMETRICALLY;BETWEEN;IMAGEĶOR;IDENTICALě;ŎPRECEDE;ŎSUCCEED;ĶNOR%;CIRCLED
 j TURNSTILE;s oĐ sʞ; UNDER RELATION;ORIGINAL; ʬFACTORȾ;VERY ȶ; CONTAINING u q;CROSSHATCHź; PARALLELOGRAM;INVERSE 
STARTĶ;ŪTRANSMISSION;ACKNOWLEDGE;REVERSED;NORMAL ;HEADEDl;-TO-;LOGICAL "

/-- The names of characters in rows of consecutive ones. -/
def characterRows : List (Nat × String) := [
  (0x20, "SPACE;ƪ;ė;NUMBERi;DOLLARi;PERCENTi;Ɏ;ɏ;kŔ;jŔ;Ž;ž;ŕ;ſ-Ĉ;FULL STOP;ƫ;ĉƀ;ĉĘ;ĉğ;ĉ~;ĉĎ;ĉĠ;ĉľ;ĉĬ;ĉƁ;ĉƂ;Ƭ;ɐ;]i;ġi
^i;ƃ;ɑAT;Ŀ;deB;deC;deD;Ƅ;deF;deG;deH;Ŗ;deJ;deK;deL;deM;deN;ŀ;deP;deQ;deR;deS;deT;ƅ;deV;deW;deX;deY;deZ;kǮ;REVERSE ƫ;jǮ
.Ɔ;ƭ;Ƈ;Ł;dbB;dbC;dbD;ƈ;dbF;dbG;dbH;ŗ;dbJ;dbK;dbL;dbM;dbN;ł;dbP;dbQ;dbR;dbS;dbT;Ɖ;dbV;dbW;dbX;dbY;dbZ;k Ʈǯ;Ř;j Ʈǯ;Ă"),
  (0xa0, "ɒ;ĭƪ;CENTi;POUNDi;ɓ;YENi;BROKENĐ;SECTIONi;#;ɔi;FEMININEɕ;kɖ;NOTi;ǰ ſ;REGISTEREDi;Ń;Ǳi;ř-Ĉi;_ğ;_~;Ư;MICROi;ɗ
ưă;ǲ;_Ę;MASCULINEɕ;jɖ;Ċǳ;ńǴ;Ċǵ;ĭƃ;ĿĄ;Ŀ:;Ŀc.;ĿŅ;Ŀc#;Ŀcđ(;deAE;deCĢ;ƄĄ;Ƅ:;Ƅc.;Ƅc#;ŖĄ;Ŗ:;Ŗc.;Ŗc#;deETH;deNŅ;ŀĄ;ŀ:;ŀc.;ŀŅ
ŀc#;ɘi;ŀc&;ƅĄ;ƅ:;ƅc.;ƅc#;deY:;deTHORN;dbSHARP S;ŁĄ;Ł:;Łc.;ŁŅ;Łc#;Łcđ(;dbAE;dbCĢ;ƈĄ;ƈ:;ƈc.;ƈc#;ŗĄ;ŗ:;ŗc.;ŗc#;dbETH;dbNŅ
łĄ;ł:;łc.;łŅ;łc#;Ʊi;łc&;ƉĄ;Ɖ:;Ɖc.;Ɖc#;dbY:;dbTHORN;dbYc#;=dfAŚ;=dfAĮ;=dfAcƊ;=dfC:;=dfCc.;=dfCś;=dfCģ;=dfDģ;=dfDc&;=ƋŚ
=ƋĮ;=Ƌś;=ƋcƊ;=Ƌģ;=dfGc.;=dfGĮ;=dfGś;=dfGĢ;=dfHc.;=dfHc&;=dfIŅ;=dfIŚ;=dfIĮ;=dfIcƊ;Ŗś;dbDOTLESS I;=dƌIJ;=dfJc.;=dfKĢ
dbKRA;=ƍ:;=ƍĢ;=ƍģ;=ƍcưă;=ƍc&;=dfN:;=dfNĢ;=dfNģ;dbN PRECEDED BY ɏ;=dfENG;=dfOŚ;=dfOĮ;=dfOŜŝ;=dƌOE;=dfR:;=dfRĢ;=dfRģ
=dfS:;=dfSc.;=dfSĢ;=dfSģ;=dfTĢ;=dfTģ;=dfTc&;=ŞĂ;=ŞŃ;=Şņ;=Şđ(;=Şs ŝ;=ŞƊ;=dfWc.;=dfYc.;deYc#;=dfZ:;=dfZś;=dfZģ;dbƎS"),
  (0x300, "hƇ;hƯ;h.Ɔ;hĂ;hŃ;hǶ;hņ;hă(;h#;hĤ(;hđ(;ąƯ;hǷ;hŘ(;ąŘ(;ąƇ;hCANDRABINDU;hǸ;hŇŕ(;hŕ(;hĀŕ(;hŕ( j;hƇn;hƯn;hkşn;hjşn
hkň(;hHORN;hkƲn;h<ǹn;hpşn;hžn;hĈin;hPALATALIZED Ĥn;hRETROFLEX Ĥn;hăn;h#n;hđn;hŕn;hǲ;hƊ;hŘn;hǺn;hĭs ARCHn;hǷn;h.Ɔn;hņn
hǸn;hĂn;hŃn;hƭ;ąƭ;hĂƏ;hŉ&Ə;hƎ&Ə;hŉƫƏ;hƎƫƏ;hjƲn;hĭǺn;hzn;hSEAGULLn;hX(;ho Ă;ąǶ;hǻə;hŝə;hg PERISPOMENI;hg KORONIS;hɚ;hɛ
hǺ(;hġin;ąŘn;hkňn;h/Ă(;hɜ(;hƳ%(;hĥln;h|ln;hGRAPHEME ƴ;Ǽ(;hkƲ(;hFERMATA;hXn;hk ǽn;Ǽn;Ǽm<ǽn;hjƲ(;hă( j;hŽn;ąđn;hɝ(;ąņn
ąņ;ąŃ;ąŃn;ąĂ;ąǸ;ąrln;ċA;ċE;ċI;ċO;ċU;ċC;ċD;ċH;ċM;ċR;ċT;ċV;ċX;=gfHETA;=gfǾǿ;g Ȁi;g wȀi;=gfPAMPHYLIAN ȁ"),
  (0x37a, "ɛ;g qĀƐ;g qƵ;g qĀƵ;g ƃ;geYOT"), (0x384, "g Ƒ;ɚ;geƶĆ;g ANO TELEIA;geŠĆ;geETAĆ;ȂĆ"), (0x38c, "geƷĆ"),
  (0x38e, "gešĆ;geŊĆ;ƒcƓmƑ;geƶ;geȃ;geƸ;geȄ;geŠ;geZETA;geETA;geƹ;Ȃ;geȅ;geLAMDA;geMU;geNU;geXI;geƷ;gePI;geRHO"),
  (0x3a3, "geƺ;geTAU;geš;gePHI;geCHI;gePSI;geŊ;ȂcƓ;geȆ;gbƶĆ;gbŠĆ;gbETAĆ;ƒĆ;gbȆmƑ;gbƶ;gbȃ;gbƸ;gbȄ;gbŠ;gbZETA;gbETA;gbƹ
ƒ;gbȅ;gbLAMDA;gbMU;gbNU;gbXI;gbƷ;gbPI;gbRHO;gbFINAL ƺ;gbƺ;gbTAU;gbš;gbPHI;gbCHI;gbPSI;gbŊ;ƒcƓ;gbȆ;gbƷĆ;gbšĆ;gbŊĆ;ŢKAI)
g ȃ);g ƹ);ȇţ);ȇ:mĤ);ȇc#mĤ);g PHI);g PI);g KAI);gfǾƔ;gbǾƔ;gfɞ;gbɞ;gfȁ;gbȁ;gfƔ;gbƔ;gfǿ;gbǿ;=ŋSHEI;=ŋFEI;=ŋKHEI;=ŋHORI
=ŋGANGIA;=ŋSHIMA;=ŋDEI;g ȅ);g RHO);g Ɛ;gfYOT;Ţƹ);g ȈŠ);g ĀȈŠ);=gfSHO;ŢƐ;=gfSAN;g RHOc&);ŢĀƐ;ŢƵ;ŢĀƵ;aeIEĄ;aeIO;aeDJE
aeGJE;aeȉIE;aeDZE;aeɟ;aeYI;aeJE;aeLJE;aeNJE;aeTSHE;aeKJE;aeIĄ;aeŉU;aeDZHE;aeA;aeBE;aeVE;aeGHE;aeDE;aeIE;aeZHE;aeZE;aeI
aeŉI;aeKA;aeEL;aeEM;aeEN;aeO;aePE;aeER;aeES;aeTE;aeU;aeEF;aeHA;aeTSE;aeŤ;aeSHA;aeSHCHA;aeHARDi;aeȊ;aeǰi;aeE;aeYU;aeYA
abA;abBE;abVE;abGHE;abDE;abIE;abZHE;abZE;abI;abŉI;abKA;abEL;abEM;abEN;abO;abPE;abER;abES;abTE;abU;abEF;abHA;abTSE;abŤ
abSHA;abSHCHA;abHARDi;abȊ;abǰi;abE;abYU;abYA;abIEĄ;abIO;abDJE;abGJE;abȉIE;abDZE;abɟ;abYI;abJE;abLJE;abNJE;abTSHE;abKJE
abIĄ;abŉU;abDZHE;=afŊ;=afYAT;=ȋE;=afɠ;=ȋɠ;=afɡ;=ȋɡ;=afKSI;=afPSI;=afFITA;=ɢ;=ɢŜƇ;=afUK;=afROUND Ŋ;=afŊcTITLO;=afOT
=afƔ;aɣ;ŌTITLO;ŌPALATALIZATION;ŌDASIAɤ;ŌPSILIɤ;ŌPOKRYTIE;Ōƻɣ;ŌMILLIONSi;=afŉIť;=afSEMISOFTi;=afERcTICK;=ƕcUPTURN;=ƕc&
=ƕcưĤ;=Ȍę;=afZEę;=Ƽę;=ƼƖ;=Ƽc&;=afBASHKIR KA;=ȍę;=aƌEN GHE;=afPEcưĤ;=ƽHA;=afESę;=afTEę;=ɥ;=ɥc&;=Ȏę;=aƌTE TSE;=ȏę;=ȏƖ
=afSHHA;=ƽŤ;=ƽŤę;afɦ;=ȌĮ;=Ƽţ;=afELť;=ȍţ;=ȍť;=afKHAKASSIAN Ť;=afEMť;abɦ;=afAĮ;=afAc#;=aƌA IE;=afIEĮ;=afȐ;=afȐc#;=Ȍc#
=afZEc#;=ƽDZE;=afIŚ;=afIc#;=afOc#;=ɧ;=ɧc#;=afEc#;=afUŚ;=afUc#;=afUŜŝ;=ȏc#;=ƕę;=afȊc#;=ƕc&mĤ;=Ȏţ;=Ȏc&"),
  (0x2000, "EN QUAD;EM QUAD;ENĚ;EMĚ;~ȑ;Ďȑ;ľȑ;ɨĚ;ȒĚ;THINĚ;HAIRĚ;ȓĚ;ȓ NON-ƴ;ȓ ƴ;ƾČ;ƿČ;ſ;NON-BREAKING ſ;ɨį;ENį;EMį;tĐ;s Ř
s ƭ;kİ ė;jİ ė;Ɨɩ;Ɨɪ;k s ė;j s ė;sɩ;sɪ;ɫ;s ɫ;ǀ;TRIANGULARƘ;ƙɬ;ıɬ;t ƚ;HYPHENATIONɭ;ƛĲ;PARAGRAPHĲ;ƾɮ;ƿɮ;ɯ FORMATTING;ƾɰ
ƿɰ;NARROW ɒ;PER MILLEi;PER TENŦi;Ȕ;sƜ;ĳƜ;ĀȔ;ĀsƜ;ĀĳƜ;CARET;Ɨ kćǁ ė;Ɨ jćǁ ė;REFERENCEČ;s ƪ;INTERROBANG;Ƕ;ɱ;ɲ TIE
CARET INSERTIONɭ;ASTERISM;ſƘ;ȕȖ;kɳ;jɳ;s ƃ;ɴ ƪ;ɵ ƃ;TIRONIANi ET;Āɗ;u vƘ;u rƘ;LOW Ž;Āɐ;CLOSE UP
ıASTERISKS ALIGNED VERTICALLY;ɑĈi;SWUNGį;ĭɱ;FLOWER ȒČ;~ ǂ;ɶƜ;Ď ǂ;Ġ ǂ;ıǂ;Ď ăČ;ȗCROSS;TRICOLON;o Ď DOTS;ŧMATHEMATICALĚ
WORD ƴ;FUNCTION APPLICATION;Ș ǃ;ȘĲ;Ș ř"), (0x2066, "ƾǄ;ƿǄ;FIRST STRONGǄ;ɯǄ;ɷɸ;ɹɸ;ɷɺ;ɹɺ;NATIONALɻ;NOMINALɻ;_ƀ;_ŗ"),
  (0x2074, "_Ď;_Ġ;_ľ;_Ĭ;_Ɓ;_Ƃ;_ž;_Ĉ;_ġi;_kŔ;_jŔ;_dbN;ā ƀ;ā Ę;ā ğ;ā ~;ā Ď;ā Ġ;ā ľ;ā Ĭ;ā Ɓ;ā Ƃ;ā ž;ā Ĉ;ā ġi;ā kŔ;ā jŔ"),
  (0x2090, "čA;čE;čO;čX;čȐ;čH;čK;čL;čM;čN;čP;čS;čT"),
  (0x20a0, "EURO-ɓ;Ƭi;CRUZEIROi;FRENCH FRANCi;LIRAi;MILLi;NAIRAi;PESETAi;ɼ;WONi;NEW SHEQELi;DONGi;EUROi;KIPi;TUGRIKi
DRACHMAi;GERMAN PENNYi;PESOi;GUARANIi;AUSTRALi;HRYVNIAi;CEDIi;LIVRE TOURNOISi;SPESMILOi;TENGEi;INDIAN ɼ;TURKISH LIRAi
NORDICČi;MANATi;RUBLEi;LARIi;BITCOINi;SOMi"),
  (0x2100, "ACCOUNTĒ;ADDRESSEDĦșSUBJECT;ħC;Ǳ CELSIUS;CENTREō);CAREĒ;CADA UNA;EULERɽ;SCRUPLE;Ǳ FAHRENHEIT;ȚG;ĴH;ƝH;ħH;ɾ
ɾŨıPI;ĴI;ƝI;=ț L;L BĐ);ħN;NUMEROi;SOUND RECORDING ɔ;ĴP;ħP;ħQ;ĴR;ƝR;ħR;PRESCRIPTION TAKE;RESPONSE;SERVICEČ;TELEPHONEi
TRADEČi;VERSICLE;ħZ;OUNCEi;OHMi;ĭOHMi;ƝZ;Ňƒ;KELVINi;ANGSTROMi;ĴB;ƝC;ESTIMATED);ȚE;ĴE;ĴF;ɿĨ F;ĴM;ȚO;ALEF);BET);GIMEL)
DALET);ʀʁ;ROTATEDĨ Q;FACSIMILEi;ƞ qPI;ƞ qƸ;ħƸ;ħPI;ƞ ʂ;ȜG;ȜL;ĀʃL;ȜY;ʄĨ D;ǅD;ǅE;ǅI;ǅJ;PROPERTYō;ŇɎ;PERi;AKTIESELSKAB;ŇqF
ʅ FOR SAMARITANʁ;ńSEVENTH;ńNINTH;ńTENTH;ńTHIRD;Ċıʆ;ńFIFTH;Ċıȝ;Ċ~ ȝ;ĊĎ ȝ;ńSIXTH;ĊĠ SIXTHS;Ċʇ;Ċ~ǆ;ĊĠǆ;ĊĬǆ;ȕNUMERATOR Ę
$Ę;$ğ;$~;$Ď;Ɵ;$ľ;$Ĭ;$Ɓ;$Ƃ;Ȟ;ʈ;ʉ;Ǉ;$ǈ;Ɵ ƻ;ȟ;q$Ę;q$ğ;q$~;q$Ď;qƟ;q$ľ;q$Ĭ;q$Ɓ;q$Ƃ;qȞ;qʈ;qʉ;qǇ;q$ǈ;qƟ ƻ;qȟ;ȟ C D;ƟŦ;ȞŦ;$Āǈ
dbĀC;$ľ LATE ǉ;Ǉ EARLY ǉ;ǇŦ;$ǈŦ;Ċƀ ʆ;Ňĉğ;Ňĉ~"),
  (0x2190, "vl;|l;rl;>l;ĥl;<pl;Ǌl;Ƞȡl;Ȣl;ȣȤl;vlc&;rlc&;vǋl;rǋl;vǌ;|ǌ;rǌ;>ǌ;vlť;rlť;vƠ;|Ơ;rƠ;>Ơ;<plcBASE;vlţ;rlţ;vʊ;rʊ
ĥǋl;ĥlc&;> ɝl;|Ǎv;|Ǎr;>Ǎv;>Ǎr;rlcǎ >;>lcǎ v;ȥʋ;Ǐ ʋ;ǊlĦLONGĐ;vǐŨrǐ;ȥʌ;Ǐ ʌ;vĵ|;vĵ>;|ĵr;|ĵv;rĵ|;rĵ>;>ĵr;>ĵv;rlŨvl;|l vĶ>l
vlŨrl;vǑ;|Ǒ;rǑ;>Ǒ;vơŨrơ;rơŨvơ;vȦ;ĥȦ;rȦ;vď;|ď;rď;>ď;ĥď;<pď;Ǌď;Ƞȡď;Ȣď;ȣȤď;v ĳl;r ĳl;vʍ;rʍ;|lŜ&;>lŜ&;vǒ;|ǒ;rǒ;>ǒ;vǐ;rǐ;vƢ
ƣl;rƢ;>Ƣ;ƣƠ;ȧ;ȧctĐ;ȧcoĐ;ƣď;ƣ sʎ;rƢ FROM WALL;ǊlĦǎ;ȢlĦǎ;<pƢ;jlcqũ;>l vĶ|l;~ rʏ;vlƖ;rlƖ;ĥlƖ;vȨ;rȨ;ĥȨ;vȩ;rȩ;ĥȩ;FOR ALL
COMPLEMENT;PARTIAL DIFFERENTIAL;ʐEXISTS;ʐŎEXIST;EMPTY SET;INCREMENT;NABLA;ē;/AN ē;qē;ǓȪ;ȫȪ;qǓȪ;ŪPROOF;ŏȬ;ŏCOPRODUCT;ʂ
Ĉi;Ĉ-OR-ž;ă ř;Ʊ Ȗ;SET Ĉ;Žĩ;đĩ;ǀĩ;zȭ;CUBEȭ;FOURTHȭ;PROPORTIONALě;INFINITY;jň;ǁ;ʑň;SPHERICALň;DIVIDES;ŎDIVIDE;Ȯ;/Ȯ;ȯ;Ȱ;ȱ
ǔ;ʒ;sū;ĳū;Ȳ;SURFACEū;VOLUMEū;Ǐū;Ǐ Ȳ;ȥȲ;THEREFORE;BECAUSE;RATIO;ʓ;ă Ĉ;EXCESS;GEOMETRIC ʓ;ɜ;Ăĩ;ĀĂ;ĭLAZY S;SINEǋ;WREATH Ȭ
/Ă;Ĉ Ă;ʔ;/ʔ;Ƥ%;Ƥƥ/ʕ;ƦƤȳ ʕ;Ƴ%;/Ƴ%;Ƴ Ŭŭ;ĳ Ă;ALL%;Ĕ;ʖ Ĕ;DIFFERENCE ʗ;APPROACHES șLIMIT;ʖ%;Ƥ%ĕșȴ;ʘ Ƥ%;Ƭ ġ;ġ Ƭ;đ IN%;đ%
CORRESPONDSě;ESTIMATES;EQUIANGULARě;STAR ġ;Ȅ%;ŬĦBY DEFINITION;ʑ BY;QUESTIONED%;Ő;ʙ;/ʙ;STRICTLY Ĕ;]ŭ;^ŭ;]ȵ%;^ȵ%;]ƥŐ;^ƥŐ
ȶ];ȶ^;ʗ;/Ĕ;/];/^;ȷ%;ȸ%;]ĕĔ;^ĕĔ;ȷ Ĕ;ȸ Ĕ;]ĕ^;^ĕ];ȷ ^;ȸ ];Ů;ů;Ůŭ;ůŭ;ŮĕĔ;ůĕĔ;ʚ;ʛ;ȹ;Ⱥ;/A ȹ;/A Ⱥ;ǕŰ;ǖŰ;ƦA Ǖʜ;ƦA ǖʜ;ȹcŐ;ȺcŐ;Ȼ
Ȼ ɘ;Ȼ ǔ;z ȴ;ǗĒ;ȼ%;ǗŰ;z CAP;z CUP;ķř;ķĈ;ķǃ;ķƱ Ȗ;ķȽ;ķđĩ;ķŽĩ;ķġ;ʝį;ǘř;ǘĈ;ǘǃ;ǘȽ;jş;kş;pş;<ǹ;ASSERTION;MODELS;TRUE;FORCES
ĳ oĐʞ;ʟ;ŎPROVE;/TRUE;ŎFORCE;NEGATED ʟ;Ůʠ;ůʠ;ĸĒ;Ǔĸ;ĸŰ;Ǔĸŭ;ʡĒ;ȴ;MULTIMAP;HERMITIAN CONJUGATE MATRIX;INTERCALATE;XOR;NAND
NOR;jňcARC;Ƨ;ŏȯ;ŏȰ;ŏȱ;ŏǔ;ƨĩ;Ƚ;STARĩ;Ʊ ǃ;BOWTIE;kʢ;jʢ;kȾ;jȾ;ĀĂ ġ;Ʈ Ȱ;Ʈ ȯ;s Ǖ;s ǖ;s ȱ;s ǔ;PITCHFORK;ŬmȮ;]că;^că;ʣ];ʣ^
]%ĕ^;^%ĕ];Ǚ];Ǚ^;ǙŮ;Ǚů;ʚȿ;ʛȿ;/ȼ%;/ǗŰ;ȼ Ő;ǗĶOR Ő;]ǚ;^ǚ;Ůǚ;ůǚ;/ĸĒ;ȫĸ;/ĸŰ;ȫĸȿ;o ƚ;MIDLINE t ƚ;<j Ĺƚ;p j Ĺƚ;ēcƎt &;ēǛ;qēǛ
ēś;ēǜ;qēǜ;ēcUNDERBAR;ēcıt STROKES;űcƎt &;űǛ;qűǛ;űǜ;qűǜ;Z NOTATION BAG MEMBERSHIP"),
  (0x2500, "*t;@t;*o;@o;*ǝt;@ǝt;*ǝo;@ǝo;+yǞt;+xǞt;+yǞo;+xǞo;*pmj;Ųĺx;Ĝųy;@pmj;*pmk;ŲĻx;ĜŴy;@pmk;ǟj;ŵĺx;ĝųy;Ǡj;ǟk;ŵĻx
ĝŴy;Ǡk;*omj;Īyĺx;ĝɀ;ĜɁ;Īųy;Ųĺ<x;ŵĺp x;@omj;*omk;ĪyĻx;ĝɂ;ĜɃ;ĪŴy;ŲĻ<x;ŵĻp x;@omk;*pmt;Ŷɀ;ŷɂ;Ųőx;Ĝxőy;Ʉp x;Ʌp x;@pmt;ǟt
ŶɁ;ŷɃ;ŵőx;ĝxőy;Ʉ<x;Ʌ<x;Ǡt;*omt;Ŷųo y;ŷŴo y;Īyőx;ĝxmp t y;Ĝxm<t y;Īxőy;Ŷ<ɀ;ŷ<ɂ;Ŷp Ɂ;ŷp Ƀ;Ųm<t x;ŵmp t x;Ʉo x;Ʌo x;@omt
*ǡt;@ǡt;*ǡo;@ǡo;Ėt;Ėo;+pɆ;Ĝɇ;Ėpmj;+pɈ;Ĝɉ;Ėpmk;+UPɆ;ĝɇ;ĖŒj;+UPɈ;ĝɉ;ĖŒk;+oɆ;Īɇ;Ėomj;+oɈ;Īɉ;Ėomk;+pɊ;Ĝɋ;Ėpmt;+UPɊ;ĝɋ;ĖŒt
+oɊ;Īɋ;Ėomt;Ǣpmj;Ǣpmk;ǢŒk;ǢŒj;*Ĺ,jĦwk;*Ĺ,kĦwj;*ĹCROSS;*k;*UP;*j;*p;@k;@UP;@j;@p;*kmx j;ǟx p;@kmy j;Ǡy p;,ǣ;wǤ;wǳī;w~Ÿ
wǣ;wĠŸ;wǵī;wĬŸ;FULLī;k ĬŸ;k ǵī;k ĠŸ;k ǣ;k ~Ÿ;k ǳī;k Ǥ;j ǣ;y Ɍ;ŧɌ;DARK Ɍ;,Ǥ;j Ǥ;[ wk;[ wj;[ ,k;ǥwkmwj;ǥwj;ǥǦk;ǥǦj;[ ,j
[ Ǧk;[ Ǧkmwj;u z;! z;ŹROUNDED CORNERS;! zʤz;zctź;zcoź;zcORTHOGONAL ʥ;zc,kĦwjź;zc,jĦwkź;zcĹʥ;u qz;! qz;uǧ;!ǧ;u oǧ;! oǧ
uʦ;!ʦ;uƩ?;!Ʃ?;uƩq?;!Ʃq?;u jć?;! jć?;u jŻ;! jŻ;u jǨ;! jǨ;u pć?;! pć?;u pŻ;! pŻ;u kć?;! kć?;u kŻ;! kŻ;u kǨ;! kǨ;u ƨ;! ƨ
! ƨʤƨ;FISHEYE;LOZENGE;!ļ;ȗũ;œoź;BULLSEYE;uļ;œkĽ;œjĽ;œwĞu;œ,Ğu;œ,j [ u;œALLƥż[ u;kĽļ;jĽļ;ʧǀ;ɍ;,Ğɍ;wĞɍ;,kǩ;,jǩ;wjǩ;wkǩ
,Ğũ;wĞũ;u wƧ;u wk ?;u ż?;u ,Ƨ;!Ƙ;zckĽ;zcjĽ;zcżĹĞu;zcwj ĹĞu;Źo BISECTINGō;!Ʃ?că;UPć?ckĽ;UPć?cjĽ;LARGEļ;Źż[;Źwk [;Źwj [
Ź,j [;Ǫż[;Ǫwk [;Ǫwj [;Ǫ,j [;ż?;,Ƨ;wk ?;! ŧz;u ŧz;! ŧqz;u ŧqz;wƧ"),
  (0x231a, "WATCH;HOURGLASS"),
  (0x2600, "BLACK SUN WITH RAYS;CLOUD;UMBRELLA;SNOWMAN;COMET;BLACK STAR;WHITE STAR"),
  (0x2639, "WHITE FROWNING FACE;WHITE SMILING FACE"),
  (0x2660, "BLACK SPADE SUIT;WHITE HEART SUIT;WHITE DIAMOND SUIT;BLACK CLUB SUIT;WHITE SPADE SUIT
BLACK HEART SUIT;BLACK DIAMOND SUIT;WHITE CLUB SUIT"),
  (0x26a0, "WARNING SIGN;HIGH VOLTAGE SIGN"), (0x2705, "WHITE HEAVY CHECK MARK"),
  (0x2713, "CHECK MARK;HEAVY CHECK MARK;MULTIPLICATION X;HEAVY MULTIPLICATION X;BALLOT X;HEAVY BALLOT X"),
  (0x2728, "SPARKLES"), (0x274c, "CROSS MARK"), (0x2764, "HEAVY BLACK HEART"), (0x1f389, "PARTY POPPER"),
  (0x1f40d, "SNAKE"), (0x1f44d, "THUMBS UP SIGN;THUMBS DOWN SIGN"), (0x1f4a9, "PILE OF POO"),
  (0x1f525, "FIRE"),
  (0x1f600, "GRINNING FACE;GRINNING FACE WITH SMILING EYES;FACE WITH TEARS OF JOY;SMILING FACE WITH OPEN MOUTH"),
  (0x1f680, "ROCKET")]

/-- Further names of characters, in rows as well. -/
def aliasRows : List (Nat × String) := [
  (0x0, "NULL;ʨHEADING;ʨTEXT;ŪTEXT;ʩ;ENQUIRY;ʪ;ALERT;BACKSPACE;ɲǫ;ƛ FEED;ƛǫ;ǉ FEED;CARRIAGE RETURN;SHIFT OUT;SHIFT IN
DATA LINK ESCAPE;ǬĘ;Ǭğ;Ǭ~;ǬĎ;NEGATIVE ʪ;SYNCHRONOUS IDLE;ʩī;CANCEL;ŪMEDIUM;SUBSTITUTE;ESCAPE;ǭĎ;ǭ~;ǭğ;ǭĘ"),
  (0x9, "tǫ;NEWō;oǫ"), (0xa, "Ūƛ"), (0x1c, "FILEĲ;GROUPĲ;RECORDĲ;UNITĲ"), (0x7f, "DELETE"), (0x85, "NEXTō"),
  (0x0, "NUL;SOH;STX;ETX;EOT;ENQ;ACK;BEL;BS;HT;LF;VT;FF;CR;SO;SI;DLE;DC1;DC2;DC3;DC4;NAK;SYN;ETB;CAN"),
  (0x9, "TAB;NL"), (0xa, "EOL"), (0x1a, "SUB;ESC;FS;GS;RS;US;SP"), (0x7f, "DEL"), (0x85, "NEL"), (0xa0, "NBSP"),
  (0xad, "SHY"), (0x200b, "ZWSP;ZWNJ;ZWJ;LRM;RLM"), (0x2060, "WJ"), (0xfeff, "BOM"), (0xfeff, "ZWNBSP"),
  (0xfeff, "BYTE ORDERČ")]

end RepoAtlas.Text

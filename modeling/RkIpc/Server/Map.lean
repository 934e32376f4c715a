import Mathlib.Data.List.Nodup
import RkIpc.Server.Handler

/-!
# The function map

The handlers of `common/socket_server/server.c`, each under its name there, and the table by which
`rec_thread` finds them. A handler of a family is that family at its operation.

## Main definitions

* `FunMap`, `map`: an entry, and the table
* `serRkIspGetScenario`, ...: the handlers

## Main results

* `map_names_distinct`: no name occurs twice in the table
-/

namespace RkIpc.Server

def serRkIspSet : Handler := logOnly
def serRkVideoSet : Handler := logOnly
def serRkAudioSet : Handler := logOnly

/-! ## isp scenario -/

def serRkIspGetScenario : Handler := strGetter "rk_isp_get_scenario"
def serRkIspSetScenario : Handler := strSetter "rk_isp_set_scenario"

/-! ## isp adjustment -/

def serRkIspGetContrast : Handler := intGetter "rk_isp_get_contrast"
def serRkIspSetContrast : Handler := intSetter "rk_isp_set_contrast"
def serRkIspGetBrightness : Handler := intGetter "rk_isp_get_brightness"
def serRkIspSetBrightness : Handler := intSetter "rk_isp_set_brightness"
def serRkIspGetSaturation : Handler := intGetter "rk_isp_get_saturation"
def serRkIspSetSaturation : Handler := intSetter "rk_isp_set_saturation"
def serRkIspGetSharpness : Handler := intGetter "rk_isp_get_sharpness"
def serRkIspSetSharpness : Handler := intSetter "rk_isp_set_sharpness"
def serRkIspGetHue : Handler := intGetter "rk_isp_get_hue"
def serRkIspSetHue : Handler := intSetter "rk_isp_set_hue"

/-! ## isp exposure -/

def serRkIspGetExposureMode : Handler := strGetter "rk_isp_get_exposure_mode"
def serRkIspSetExposureMode : Handler := strSetter "rk_isp_set_exposure_mode"
def serRkIspGetGainMode : Handler := strGetter "rk_isp_get_gain_mode"
def serRkIspSetGainMode : Handler := strSetter "rk_isp_set_gain_mode"
def serRkIspGetExposureTime : Handler := strGetter "rk_isp_get_exposure_time"
def serRkIspSetExposureTime : Handler := strSetter "rk_isp_set_exposure_time"
def serRkIspGetExposureGain : Handler := intGetter "rk_isp_get_exposure_gain"
def serRkIspSetExposureGain : Handler := intSetter "rk_isp_set_exposure_gain"
def serRkIspGetFrameRate : Handler := intGetter "rk_isp_get_frame_rate"
def serRkIspSetFrameRate : Handler := intSetter "rk_isp_set_frame_rate"

/-! ## isp night_to_day -/

def serRkIspGetNightToDay : Handler := strGetter "rk_isp_get_night_to_day"
def serRkIspSetNightToDay : Handler := strSetter "rk_isp_set_night_to_day"
def serRkIspGetFillLightMode : Handler := strGetter "rk_isp_get_fill_light_mode"
def serRkIspSetFillLightMode : Handler := strSetter "rk_isp_set_fill_light_mode"
def serRkIspGetLightBrightness : Handler := intGetter "rk_isp_get_light_brightness"
def serRkIspSetLightBrightness : Handler := intSetter "rk_isp_set_light_brightness"
def serRkIspGetNightToDayFilterLevel : Handler := intGetter "rk_isp_get_night_to_day_filter_level"
def serRkIspSetNightToDayFilterLevel : Handler := intSetter "rk_isp_set_night_to_day_filter_level"
def serRkIspGetNightToDayFilterTime : Handler := intGetter "rk_isp_get_night_to_day_filter_time"
def serRkIspSetNightToDayFilterTime : Handler := intSetter "rk_isp_set_night_to_day_filter_time"

/-! ## isp blc -/

def serRkIspGetHdr : Handler := strGetter "rk_isp_get_hdr"
def serRkIspSetHdr : Handler := strSetter "rk_isp_set_hdr"
def serRkIspGetBlcRegion : Handler := strGetter "rk_isp_get_blc_region"
def serRkIspSetBlcRegion : Handler := strSetter "rk_isp_set_blc_region"
def serRkIspGetHlc : Handler := strGetter "rk_isp_get_hlc"
def serRkIspSetHlc : Handler := strSetter "rk_isp_set_hlc"
def serRkIspGetHdrLevel : Handler := intGetter "rk_isp_get_hdr_level"
def serRkIspSetHdrLevel : Handler := intSetter "rk_isp_set_hdr_level"
def serRkIspGetBlcStrength : Handler := intGetter "rk_isp_get_blc_strength"
def serRkIspSetBlcStrength : Handler := intSetter "rk_isp_set_blc_strength"
def serRkIspGetHlcLevel : Handler := intGetter "rk_isp_get_hlc_level"
def serRkIspSetHlcLevel : Handler := intSetter "rk_isp_set_hlc_level"
def serRkIspGetDarkBoostLevel : Handler := intGetter "rk_isp_get_dark_boost_level"
def serRkIspSetDarkBoostLevel : Handler := intSetter "rk_isp_set_dark_boost_level"

/-! ## isp white_blance -/

def serRkIspGetWhiteBlanceStyle : Handler := strGetter "rk_isp_get_white_blance_style"
def serRkIspSetWhiteBlanceStyle : Handler := strSetter "rk_isp_set_white_blance_style"
def serRkIspGetWhiteBlanceRed : Handler := intGetter "rk_isp_get_white_blance_red"
def serRkIspSetWhiteBlanceRed : Handler := intSetter "rk_isp_set_white_blance_red"
def serRkIspGetWhiteBlanceGreen : Handler := intGetter "rk_isp_get_white_blance_green"
def serRkIspSetWhiteBlanceGreen : Handler := intSetter "rk_isp_set_white_blance_green"
def serRkIspGetWhiteBlanceBlue : Handler := intGetter "rk_isp_get_white_blance_blue"
def serRkIspSetWhiteBlanceBlue : Handler := intSetter "rk_isp_set_white_blance_blue"

/-! ## isp enhancement -/

def serRkIspGetNoiseReduceMode : Handler := strGetter "rk_isp_get_noise_reduce_mode"
def serRkIspSetNoiseReduceMode : Handler := strSetter "rk_isp_set_noise_reduce_mode"
def serRkIspGetDehaze : Handler := strGetter "rk_isp_get_dehaze"
def serRkIspSetDehaze : Handler := strSetter "rk_isp_set_dehaze"
def serRkIspGetGrayScaleMode : Handler := strGetter "rk_isp_get_gray_scale_mode"
def serRkIspSetGrayScaleMode : Handler := strSetter "rk_isp_set_gray_scale_mode"
def serRkIspGetDistortionCorrection : Handler := strGetter "rk_isp_get_distortion_correction"
def serRkIspSetDistortionCorrection : Handler := strSetter "rk_isp_set_distortion_correction"
def serRkIspGetSpatialDenoiseLevel : Handler := intGetter "rk_isp_get_spatial_denoise_level"
def serRkIspSetSpatialDenoiseLevel : Handler := intSetter "rk_isp_set_spatial_denoise_level"
def serRkIspGetTemporalDenoiseLevel : Handler := intGetter "rk_isp_get_temporal_denoise_level"
def serRkIspSetTemporalDenoiseLevel : Handler := intSetter "rk_isp_set_temporal_denoise_level"
def serRkIspGetDehazeLevel : Handler := intGetter "rk_isp_get_dehaze_level"
def serRkIspSetDehazeLevel : Handler := intSetter "rk_isp_set_dehaze_level"
def serRkIspGetFecLevel : Handler := intGetter "rk_isp_get_fec_level"
def serRkIspSetFecLevel : Handler := intSetter "rk_isp_set_fec_level"
def serRkIspGetLdchLevel : Handler := intGetter "rk_isp_get_ldch_level"
def serRkIspSetLdchLevel : Handler := intSetter "rk_isp_set_ldch_level"

/-! ## isp video_adjustment -/

def serRkIspGetPowerLineFrequencyMode : Handler := strGetter "rk_isp_get_power_line_frequency_mode"
def serRkIspSetPowerLineFrequencyMode : Handler := strSetter "rk_isp_set_power_line_frequency_mode"
def serRkIspGetImageFlip : Handler := strGetter "rk_isp_get_image_flip"
def serRkIspSetImageFlip : Handler := strSetter "rk_isp_set_image_flip"

/-! ## isp auto focus -/

def serRkIspGetAfMode : Handler := strGetter "rk_isp_get_af_mode"
def serRkIspSetAfMode : Handler := strSetter "rk_isp_set_af_mode"
def serRkIspGetZoomLevel : Handler := intGetter "rk_isp_get_zoom_level"
def serRkIspGetFocusLevel : Handler := intGetter "rk_isp_get_focus_level"
def serRkIspAfZoomIn : Handler := idCommand "rk_isp_af_zoom_in"
def serRkIspAfZoomOut : Handler := idCommand "rk_isp_af_zoom_out"
def serRkIspAfFocusIn : Handler := idCommand "rk_isp_af_focus_in"
def serRkIspAfFocusOut : Handler := idCommand "rk_isp_af_focus_out"
def serRkIspAfFocusOnce : Handler := idCommand "rk_isp_af_focus_once"

/-! ## audio -/

def serRkAudioRestart : Handler := command "rk_audio_restart"
def serRkAudioGetBitRate : Handler := intGetter "rk_audio_get_bit_rate"
def serRkAudioSetBitRate : Handler := intSetter "rk_audio_set_bit_rate"
def serRkAudioGetSampleRate : Handler := intGetter "rk_audio_get_sample_rate"
def serRkAudioSetSampleRate : Handler := intSetter "rk_audio_set_sample_rate"
def serRkAudioGetVolume : Handler := intGetter "rk_audio_get_volume"
def serRkAudioSetVolume : Handler := intSetter "rk_audio_set_volume"
def serRkAudioGetEnableVqe : Handler := intGetter "rk_audio_get_enable_vqe"
def serRkAudioSetEnableVqe : Handler := intSetter "rk_audio_set_enable_vqe"
def serRkAudioGetEncodeType : Handler := strGetter "rk_audio_get_encode_type"
def serRkAudioSetEncodeType : Handler := strSetter "rk_audio_set_encode_type"

/-! ## video -/

def serRkVideoRestart : Handler := command "rk_video_restart"
def serRkVideoGetGop : Handler := intGetter "rk_video_get_gop"
def serRkVideoSetGop : Handler := intSetter "rk_video_set_gop"
def serRkVideoGetMaxRate : Handler := intGetter "rk_video_get_max_rate"
def serRkVideoSetMaxRate : Handler := intSetter "rk_video_set_max_rate"
def serRkVideoGetRCMode : Handler := strGetter "rk_video_get_RC_mode"
def serRkVideoSetRCMode : Handler := strSetter "rk_video_set_RC_mode"
def serRkVideoGetOutputDataType : Handler := strGetter "rk_video_get_output_data_type"
def serRkVideoSetOutputDataType : Handler := strSetter "rk_video_set_output_data_type"
def serRkVideoGetRcQuality : Handler := strGetter "rk_video_get_rc_quality"
def serRkVideoSetRcQuality : Handler := strSetter "rk_video_set_rc_quality"
def serRkVideoGetSmart : Handler := strGetter "rk_video_get_smart"
def serRkVideoSetSmart : Handler := strSetter "rk_video_set_smart"
def serRkVideoGetGopMode : Handler := strGetter "rk_video_get_gop_mode"
def serRkVideoSetGopMode : Handler := strSetter "rk_video_set_gop_mode"
def serRkVideoGetStreamType : Handler := strGetter "rk_video_get_stream_type"
def serRkVideoSetStreamType : Handler := strSetter "rk_video_set_stream_type"
def serRkVideoGetH264Profile : Handler := strGetter "rk_video_get_h264_profile"
def serRkVideoSetH264Profile : Handler := strSetter "rk_video_set_h264_profile"
def serRkVideoGetResolution : Handler := strGetter "rk_video_get_resolution"
def serRkVideoSetResolution : Handler := strSetter "rk_video_set_resolution"
def serRkVideoGetFrameRate : Handler := strGetter "rk_video_get_frame_rate"
def serRkVideoSetFrameRate : Handler := strSetter "rk_video_set_frame_rate"
def serRkVideoGetFrameRateIn : Handler := strGetter "rk_video_get_frame_rate_in"
def serRkVideoSetFrameRateIn : Handler := strSetter "rk_video_set_frame_rate_in"
def serRkVideoGetRotation : Handler := globalIntGetter "rk_video_get_rotation"
def serRkVideoSetRotation : Handler := globalIntSetter "rk_video_set_rotation"

/-! ## jpeg -/

def serRkVideoGetEnableCycleSnapshot : Handler :=
  globalIntGetter "rk_video_get_enable_cycle_snapshot"
def serRkVideoSetEnableCycleSnapshot : Handler :=
  globalIntSetter "rk_video_set_enable_cycle_snapshot"
def serRkVideoGetImageQuality : Handler := globalIntGetter "rk_video_get_image_quality"
def serRkVideoSetImageQuality : Handler := globalIntSetter "rk_video_set_image_quality"
def serRkVideoGetSnapshotIntervalMs : Handler := globalIntGetter "rk_video_get_snapshot_interval_ms"
def serRkVideoSetSnapshotIntervalMs : Handler := globalIntSetter "rk_video_set_snapshot_interval_ms"
def serRkVideoGetJpegResolution : Handler := globalStrGetter "rk_video_get_jpeg_resolution"
def serRkVideoSetJpegResolution : Handler := globalStrSetter "rk_video_set_jpeg_resolution"

/-! ## osd.common -/

def serRkOsdGetIsPresistentText : Handler := globalIntGetter "rk_osd_get_is_presistent_text"
def serRkOsdSetIsPresistentText : Handler := globalIntSetter "rk_osd_set_is_presistent_text"
def serRkOsdGetFontSize : Handler := globalIntGetter "rk_osd_get_font_size"
def serRkOsdSetFontSize : Handler := globalIntSetter "rk_osd_set_font_size"
def serRkOsdGetBoundary : Handler := globalIntGetter "rk_osd_get_boundary"
def serRkOsdSetBoundary : Handler := globalIntSetter "rk_osd_set_boundary"
def serRkOsdGetNormalizedScreenWidth : Handler :=
  globalIntGetter "rk_osd_get_normalized_screen_width"
def serRkOsdGetNormalizedScreenHeight : Handler :=
  globalIntGetter "rk_osd_get_normalized_screen_height"
def serRkOsdGetAttribute : Handler := globalStrGetter "rk_osd_get_attribute"
def serRkOsdSetAttribute : Handler := globalStrSetter "rk_osd_set_attribute"
def serRkOsdGetFontColorMode : Handler := globalStrGetter "rk_osd_get_font_color_mode"
def serRkOsdSetFontColorMode : Handler := globalStrSetter "rk_osd_set_font_color_mode"
def serRkOsdGetFontColor : Handler := globalStrGetter "rk_osd_get_font_color"
def serRkOsdSetFontColor : Handler := globalStrSetter "rk_osd_set_font_color"
def serRkOsdGetAlignment : Handler := globalStrGetter "rk_osd_get_alignment"
def serRkOsdSetAlignment : Handler := globalStrSetter "rk_osd_set_alignment"
def serRkOsdGetFontPath : Handler := globalStrGetter "rk_osd_get_font_path"
def serRkOsdSetFontPath : Handler := globalStrSetter "rk_osd_set_font_path"

/-! ## osd.x -/

def serRkOsdGetEnabled : Handler := intGetter "rk_osd_get_enabled"
def serRkOsdSetEnabled : Handler := intSetter "rk_osd_set_enabled"
def serRkOsdGetPositionX : Handler := intGetter "rk_osd_get_position_x"
def serRkOsdSetPositionX : Handler := intSetter "rk_osd_set_position_x"
def serRkOsdGetPositionY : Handler := intGetter "rk_osd_get_position_y"
def serRkOsdSetPositionY : Handler := intSetter "rk_osd_set_position_y"
def serRkOsdGetHeight : Handler := intGetter "rk_osd_get_height"
def serRkOsdSetHeight : Handler := intSetter "rk_osd_set_height"
def serRkOsdGetWidth : Handler := intGetter "rk_osd_get_width"
def serRkOsdSetWidth : Handler := intSetter "rk_osd_set_width"
def serRkOsdGetDisplayWeekEnabled : Handler := intGetter "rk_osd_get_display_week_enabled"
def serRkOsdSetDisplayWeekEnabled : Handler := intSetter "rk_osd_set_display_week_enabled"
def serRkOsdGetDateStyle : Handler := strGetter "rk_osd_get_date_style"
def serRkOsdSetDateStyle : Handler := strSetter "rk_osd_set_date_style"
def serRkOsdGetTimeStyle : Handler := strGetter "rk_osd_get_time_style"
def serRkOsdSetTimeStyle : Handler := strSetter "rk_osd_set_time_style"
def serRkOsdGetType : Handler := strGetter "rk_osd_get_type"
def serRkOsdSetType : Handler := strSetter "rk_osd_set_type"
def serRkOsdGetDisplayText : Handler := strGetter "rk_osd_get_display_text"
def serRkOsdSetDisplayText : Handler := strSetter "rk_osd_set_display_text"
def serRkOsdGetImagePath : Handler := strGetter "rk_osd_get_image_path"
def serRkOsdSetImagePath : Handler := strSetter "rk_osd_set_image_path"
def serRkOsdGetStyle : Handler := strGetter "rk_osd_get_style"
def serRkOsdSetStyle : Handler := strSetter "rk_osd_set_style"
def serRkOsdRestart : Handler := command "rk_osd_restart"

/-! ## roi.x -/

def serRkRoiGetStreamType : Handler := strGetter "rk_roi_get_stream_type"
def serRkRoiSetStreamType : Handler := strSetter "rk_roi_set_stream_type"
def serRkRoiGetName : Handler := strGetter "rk_roi_get_name"
def serRkRoiSetName : Handler := strSetter "rk_roi_set_name"
def serRkRoiGetId : Handler := intGetter "rk_roi_get_id"
def serRkRoiSetId : Handler := intSetter "rk_roi_set_id"
def serRkRoiGetEnabled : Handler := intGetter "rk_roi_get_enabled"
def serRkRoiSetEnabled : Handler := intSetter "rk_roi_set_enabled"
def serRkRoiGetPositionX : Handler := intGetter "rk_roi_get_position_x"
def serRkRoiSetPositionX : Handler := intSetter "rk_roi_set_position_x"
def serRkRoiGetPositionY : Handler := intGetter "rk_roi_get_position_y"
def serRkRoiSetPositionY : Handler := intSetter "rk_roi_set_position_y"
def serRkRoiGetHeight : Handler := intGetter "rk_roi_get_height"
def serRkRoiSetHeight : Handler := intSetter "rk_roi_set_height"
def serRkRoiGetWidth : Handler := intGetter "rk_roi_get_width"
def serRkRoiSetWidth : Handler := intSetter "rk_roi_set_width"
def serRkRoiGetQualityLevel : Handler := intGetter "rk_roi_get_quality_level"
def serRkRoiSetQualityLevel : Handler := intSetter "rk_roi_set_quality_level"
def serRkRoiSetAll : Handler := command "rk_roi_set_all"

/-! ## region_clip.x -/

def serRkRegionClipGetEnabled : Handler := intGetter "rk_region_clip_get_enabled"
def serRkRegionClipSetEnabled : Handler := intSetter "rk_region_clip_set_enabled"
def serRkRegionClipGetPositionX : Handler := intGetter "rk_region_clip_get_position_x"
def serRkRegionClipSetPositionX : Handler := intSetter "rk_region_clip_set_position_x"
def serRkRegionClipGetPositionY : Handler := intGetter "rk_region_clip_get_position_y"
def serRkRegionClipSetPositionY : Handler := intSetter "rk_region_clip_set_position_y"
def serRkRegionClipGetHeight : Handler := intGetter "rk_region_clip_get_height"
def serRkRegionClipSetHeight : Handler := intSetter "rk_region_clip_set_height"
def serRkRegionClipGetWidth : Handler := intGetter "rk_region_clip_get_width"
def serRkRegionClipSetWidth : Handler := intSetter "rk_region_clip_set_width"
def serRkRegionClipSetAll : Handler := command "rk_region_clip_set_all"

/-! ## network -/

/-- An empty interface name closes the connection. -/
def serRkNetworkIpv4Get : Handler :=
  ⟨[.strOrFail], "rk_network_ipv4_get", [.str 0, .str 1, .str 2, .str 3, .zero], .ret⟩

/-- What is not given is passed as a null pointer. -/
def serRkNetworkIpv4Set : Handler :=
  ⟨[.str, .strOrNull, .strOrNull, .strOrNull, .strOrNull], "rk_network_ipv4_set", [.zero], .ret⟩

/-- What is returned is the number of name servers. -/
def serRkNetworkDnsGet : Handler := ⟨[], "rk_network_dns_get", [.str 0, .str 1, .zero], .ret⟩

def serRkNetworkDnsSet : Handler := ⟨[.str, .str], "rk_network_dns_set", [.zero], .ret⟩
def serRkNetworkGetMac : Handler := ⟨[.strOrFail], "rk_network_get_mac", [.str 0, .zero], .ret⟩

def serRkNetworkNicspeedGet : Handler :=
  ⟨[.strOrFail], "rk_network_nicspeed_get", [.int 0, .int 1, .int 2, .zero], .ret⟩

/-- The status word does not say whether the operation succeeded. -/
def serRkNetworkNicspeedSet : Handler :=
  ⟨[.str, .int, .int, .int], "rk_network_nicspeed_set", [.zero], .ret⟩

def serRkNetworkNicspeedSupportGet : Handler :=
  ⟨[.strOrFail], "rk_network_nicspeed_support_get", [.str 0, .zero], .ret⟩

def serRkWifiPowerGet : Handler := globalIntGetter "rk_wifi_power_get"
def serRkWifiPowerSet : Handler := ⟨[.int], "rk_wifi_power_set", [.zero], .zero⟩
def serRkWifiScanWifi : Handler := command "rk_wifi_scan_wifi"
def serRkWifiGetList : Handler := globalStrGetter "rk_wifi_get_list"
def serRkWifiConnectWithSsid : Handler := ⟨[.str, .str], "rk_wifi_connect_with_ssid", [.ret], .zero⟩
def serRkWifiForgetWithSsid : Handler := ⟨[.str], "rk_wifi_forget_with_ssid", [.ret], .zero⟩

/-! ## storage -/

def serRkStorageRecordStart : Handler := command "rk_storage_record_start"
def serRkStorageRecordStop : Handler := command "rk_storage_record_stop"
def serRkStorageRecordStatueGet : Handler := globalIntGetter "rk_storage_record_statue_get"
def serRkTakePhoto : Handler := command "rk_take_photo"

/-! ## event -/

def serRkEventRiGetEnabled : Handler := globalIntGetter "rk_event_ri_get_enabled"
def serRkEventRiSetEnabled : Handler := globalIntSetter "rk_event_ri_set_enabled"
def serRkEventRiGetPositionX : Handler := globalIntGetter "rk_event_ri_get_position_x"
def serRkEventRiSetPositionX : Handler := globalIntSetter "rk_event_ri_set_position_x"
def serRkEventRiGetPositionY : Handler := globalIntGetter "rk_event_ri_get_position_y"
def serRkEventRiSetPositionY : Handler := globalIntSetter "rk_event_ri_set_position_y"
def serRkEventRiGetWidth : Handler := globalIntGetter "rk_event_ri_get_width"
def serRkEventRiSetWidth : Handler := globalIntSetter "rk_event_ri_set_width"
def serRkEventRiGetHeight : Handler := globalIntGetter "rk_event_ri_get_height"
def serRkEventRiSetHeight : Handler := globalIntSetter "rk_event_ri_set_height"
def serRkEventRiGetProportion : Handler := globalIntGetter "rk_event_ri_get_proportion"
def serRkEventRiSetProportion : Handler := globalIntSetter "rk_event_ri_set_proportion"
def serRkEventRiGetSensitivityLevel : Handler := globalIntGetter "rk_event_ri_get_sensitivity_level"
def serRkEventRiSetSensitivityLevel : Handler := globalIntSetter "rk_event_ri_set_sensitivity_level"
def serRkEventRiGetTimeThreshold : Handler := globalIntGetter "rk_event_ri_get_time_threshold"
def serRkEventRiSetTimeThreshold : Handler := globalIntSetter "rk_event_ri_set_time_threshold"

/-! ## system -/

def serRkSystemCapabilityGetVideo : Handler := globalStrGetter "rk_system_capability_get_video"
def serRkSystemCapabilityGetImageAdjustment : Handler :=
  globalStrGetter "rk_system_capability_get_image_adjustment"
def serRkSystemCapabilityGetImageBlc : Handler :=
  globalStrGetter "rk_system_capability_get_image_blc"
def serRkSystemCapabilityGetImageEnhancement : Handler :=
  globalStrGetter "rk_system_capability_get_image_enhancement"
def serRkSystemCapabilityGetImageExposure : Handler :=
  globalStrGetter "rk_system_capability_get_image_exposure"
def serRkSystemCapabilityGetImageNightToDay : Handler :=
  globalStrGetter "rk_system_capability_get_image_night_to_day"
def serRkSystemCapabilityGetImageVideoAdjustment : Handler :=
  globalStrGetter "rk_system_capability_get_image_video_adjustment"
def serRkSystemCapabilityGetImageWhiteBlance : Handler :=
  globalStrGetter "rk_system_capability_get_image_white_blance"
def serRkSystemGetDeivceName : Handler := globalStrGetter "rk_system_get_deivce_name"
def serRkSystemGetTelecontrolId : Handler := globalStrGetter "rk_system_get_telecontrol_id"
def serRkSystemGetModel : Handler := globalStrGetter "rk_system_get_model"
def serRkSystemGetSerialNumber : Handler := globalStrGetter "rk_system_get_serial_number"
def serRkSystemGetFirmwareVersion : Handler := globalStrGetter "rk_system_get_firmware_version"
def serRkSystemGetEncoderVersion : Handler := globalStrGetter "rk_system_get_encoder_version"
def serRkSystemGetWebVersion : Handler := globalStrGetter "rk_system_get_web_version"
def serRkSystemGetPluginVersion : Handler := globalStrGetter "rk_system_get_plugin_version"
def serRkSystemGetChannelsNumber : Handler := globalStrGetter "rk_system_get_channels_number"
def serRkSystemGetHardDisksNumber : Handler := globalStrGetter "rk_system_get_hard_disks_number"
def serRkSystemGetAlarmInputsNumber : Handler := globalStrGetter "rk_system_get_alarm_inputs_number"
def serRkSystemGetAlarmOutputsNumber : Handler :=
  globalStrGetter "rk_system_get_alarm_outputs_number"
def serRkSystemGetFirmwareVersionInfo : Handler :=
  globalStrGetter "rk_system_get_firmware_version_info"
def serRkSystemGetManufacturer : Handler := globalStrGetter "rk_system_get_manufacturer"
def serRkSystemGetHardwareId : Handler := globalStrGetter "rk_system_get_hardware_id"
def serRkSystemSetDeivceName : Handler := globalStrSetter "rk_system_set_deivce_name"
def serRkSystemSetTelecontrolId : Handler := globalStrSetter "rk_system_set_telecontrol_id"
def serRkSystemReboot : Handler := command "rk_system_reboot"
def serRkSystemFactoryReset : Handler := command "rk_system_factory_reset"
def serRkSystemExportLog : Handler := globalStrSetter "rk_system_export_log"
def serRkSystemExportDb : Handler := globalStrSetter "rk_system_export_db"
def serRkSystemImportDb : Handler := globalStrSetter "rk_system_import_db"
def serRkSystemUpgrade : Handler := globalStrSetter "rk_system_upgrade"
def serRkSystemGetUserNum : Handler := globalIntGetter "rk_system_get_user_num"
def serRkSystemSetUserNum : Handler := globalIntSetter "rk_system_set_user_num"
def serRkSystemGetUserLevel : Handler := intGetter "rk_system_get_user_level"
def serRkSystemSetUserLevel : Handler := intSetter "rk_system_set_user_level"
def serRkSystemGetUserName : Handler := strGetter "rk_system_get_user_name"
def serRkSystemSetUserName : Handler := strSetter "rk_system_set_user_name"
def serRkSystemGetPassword : Handler := strGetter "rk_system_get_password"
def serRkSystemSetPassword : Handler := strSetter "rk_system_set_password"

/-- Both strings are read whatever their lengths. -/
def serRkSystemAddUser : Handler := ⟨[.int, .int, .str, .str], "rk_system_add_user", [.ret], .zero⟩

def serRkSystemDelUser : Handler := idCommand "rk_system_del_user"

/-! ## The table -/

/-- `struct FunMap`. -/
structure FunMap where
  funName : String
  handler : Handler
deriving DecidableEq, Repr

/-- `map`. -/
def map : List FunMap :=
  [⟨"rk_isp_set", serRkIspSet⟩,
   ⟨"rk_video_set", serRkVideoSet⟩,
   ⟨"rk_audio_set", serRkAudioSet⟩,
   ⟨"rk_isp_get_scenario", serRkIspGetScenario⟩,
   ⟨"rk_isp_set_scenario", serRkIspSetScenario⟩,
   ⟨"rk_isp_get_contrast", serRkIspGetContrast⟩,
   ⟨"rk_isp_set_contrast", serRkIspSetContrast⟩,
   ⟨"rk_isp_get_brightness", serRkIspGetBrightness⟩,
   ⟨"rk_isp_set_brightness", serRkIspSetBrightness⟩,
   ⟨"rk_isp_get_saturation", serRkIspGetSaturation⟩,
   ⟨"rk_isp_set_saturation", serRkIspSetSaturation⟩,
   ⟨"rk_isp_get_sharpness", serRkIspGetSharpness⟩,
   ⟨"rk_isp_set_sharpness", serRkIspSetSharpness⟩,
   ⟨"rk_isp_get_hue", serRkIspGetHue⟩,
   ⟨"rk_isp_set_hue", serRkIspSetHue⟩,
   ⟨"rk_isp_get_exposure_mode", serRkIspGetExposureMode⟩,
   ⟨"rk_isp_set_exposure_mode", serRkIspSetExposureMode⟩,
   ⟨"rk_isp_get_gain_mode", serRkIspGetGainMode⟩,
   ⟨"rk_isp_set_gain_mode", serRkIspSetGainMode⟩,
   ⟨"rk_isp_get_exposure_time", serRkIspGetExposureTime⟩,
   ⟨"rk_isp_set_exposure_time", serRkIspSetExposureTime⟩,
   ⟨"rk_isp_get_exposure_gain", serRkIspGetExposureGain⟩,
   ⟨"rk_isp_set_exposure_gain", serRkIspSetExposureGain⟩,
   ⟨"rk_isp_get_frame_rate", serRkIspGetFrameRate⟩,
   ⟨"rk_isp_set_frame_rate", serRkIspSetFrameRate⟩,
   ⟨"rk_isp_get_night_to_day", serRkIspGetNightToDay⟩,
   ⟨"rk_isp_set_night_to_day", serRkIspSetNightToDay⟩,
   ⟨"rk_isp_get_fill_light_mode", serRkIspGetFillLightMode⟩,
   ⟨"rk_isp_set_fill_light_mode", serRkIspSetFillLightMode⟩,
   ⟨"rk_isp_get_light_brightness", serRkIspGetLightBrightness⟩,
   ⟨"rk_isp_set_light_brightness", serRkIspSetLightBrightness⟩,
   ⟨"rk_isp_get_night_to_day_filter_level", serRkIspGetNightToDayFilterLevel⟩,
   ⟨"rk_isp_set_night_to_day_filter_level", serRkIspSetNightToDayFilterLevel⟩,
   ⟨"rk_isp_get_night_to_day_filter_time", serRkIspGetNightToDayFilterTime⟩,
   ⟨"rk_isp_set_night_to_day_filter_time", serRkIspSetNightToDayFilterTime⟩,
   ⟨"rk_isp_get_hdr", serRkIspGetHdr⟩,
   ⟨"rk_isp_set_hdr", serRkIspSetHdr⟩,
   ⟨"rk_isp_get_blc_region", serRkIspGetBlcRegion⟩,
   ⟨"rk_isp_set_blc_region", serRkIspSetBlcRegion⟩,
   ⟨"rk_isp_get_hlc", serRkIspGetHlc⟩,
   ⟨"rk_isp_set_hlc", serRkIspSetHlc⟩,
   ⟨"rk_isp_get_hdr_level", serRkIspGetHdrLevel⟩,
   ⟨"rk_isp_set_hdr_level", serRkIspSetHdrLevel⟩,
   ⟨"rk_isp_get_blc_strength", serRkIspGetBlcStrength⟩,
   ⟨"rk_isp_set_blc_strength", serRkIspSetBlcStrength⟩,
   ⟨"rk_isp_get_hlc_level", serRkIspGetHlcLevel⟩,
   ⟨"rk_isp_set_hlc_level", serRkIspSetHlcLevel⟩,
   ⟨"rk_isp_get_dark_boost_level", serRkIspGetDarkBoostLevel⟩,
   ⟨"rk_isp_set_dark_boost_level", serRkIspSetDarkBoostLevel⟩,
   ⟨"rk_isp_get_white_blance_style", serRkIspGetWhiteBlanceStyle⟩,
   ⟨"rk_isp_set_white_blance_style", serRkIspSetWhiteBlanceStyle⟩,
   ⟨"rk_isp_get_white_blance_red", serRkIspGetWhiteBlanceRed⟩,
   ⟨"rk_isp_set_white_blance_red", serRkIspSetWhiteBlanceRed⟩,
   ⟨"rk_isp_get_white_blance_green", serRkIspGetWhiteBlanceGreen⟩,
   ⟨"rk_isp_set_white_blance_green", serRkIspSetWhiteBlanceGreen⟩,
   ⟨"rk_isp_get_white_blance_blue", serRkIspGetWhiteBlanceBlue⟩,
   ⟨"rk_isp_set_white_blance_blue", serRkIspSetWhiteBlanceBlue⟩,
   ⟨"rk_isp_get_noise_reduce_mode", serRkIspGetNoiseReduceMode⟩,
   ⟨"rk_isp_set_noise_reduce_mode", serRkIspSetNoiseReduceMode⟩,
   ⟨"rk_isp_get_dehaze", serRkIspGetDehaze⟩,
   ⟨"rk_isp_set_dehaze", serRkIspSetDehaze⟩,
   ⟨"rk_isp_get_gray_scale_mode", serRkIspGetGrayScaleMode⟩,
   ⟨"rk_isp_set_gray_scale_mode", serRkIspSetGrayScaleMode⟩,
   ⟨"rk_isp_get_distortion_correction", serRkIspGetDistortionCorrection⟩,
   ⟨"rk_isp_set_distortion_correction", serRkIspSetDistortionCorrection⟩,
   ⟨"rk_isp_get_spatial_denoise_level", serRkIspGetSpatialDenoiseLevel⟩,
   ⟨"rk_isp_set_spatial_denoise_level", serRkIspSetSpatialDenoiseLevel⟩,
   ⟨"rk_isp_get_temporal_denoise_level", serRkIspGetTemporalDenoiseLevel⟩,
   ⟨"rk_isp_set_temporal_denoise_level", serRkIspSetTemporalDenoiseLevel⟩,
   ⟨"rk_isp_get_dehaze_level", serRkIspGetDehazeLevel⟩,
   ⟨"rk_isp_set_dehaze_level", serRkIspSetDehazeLevel⟩,
   ⟨"rk_isp_get_fec_level", serRkIspGetFecLevel⟩,
   ⟨"rk_isp_set_fec_level", serRkIspSetFecLevel⟩,
   ⟨"rk_isp_get_ldch_level", serRkIspGetLdchLevel⟩,
   ⟨"rk_isp_set_ldch_level", serRkIspSetLdchLevel⟩,
   ⟨"rk_isp_get_power_line_frequency_mode", serRkIspGetPowerLineFrequencyMode⟩,
   ⟨"rk_isp_set_power_line_frequency_mode", serRkIspSetPowerLineFrequencyMode⟩,
   ⟨"rk_isp_get_image_flip", serRkIspGetImageFlip⟩,
   ⟨"rk_isp_set_image_flip", serRkIspSetImageFlip⟩,
   ⟨"rk_isp_get_af_mode", serRkIspGetAfMode⟩,
   ⟨"rk_isp_set_af_mode", serRkIspSetAfMode⟩,
   ⟨"rk_isp_get_zoom_level", serRkIspGetZoomLevel⟩,
   ⟨"rk_isp_get_focus_level", serRkIspGetFocusLevel⟩,
   ⟨"rk_isp_af_zoom_in", serRkIspAfZoomIn⟩,
   ⟨"rk_isp_af_zoom_out", serRkIspAfZoomOut⟩,
   ⟨"rk_isp_af_focus_in", serRkIspAfFocusIn⟩,
   ⟨"rk_isp_af_focus_out", serRkIspAfFocusOut⟩,
   ⟨"rk_isp_af_focus_once", serRkIspAfFocusOnce⟩,
   ⟨"rk_audio_restart", serRkAudioRestart⟩,
   ⟨"rk_audio_get_bit_rate", serRkAudioGetBitRate⟩,
   ⟨"rk_audio_set_bit_rate", serRkAudioSetBitRate⟩,
   ⟨"rk_audio_get_sample_rate", serRkAudioGetSampleRate⟩,
   ⟨"rk_audio_set_sample_rate", serRkAudioSetSampleRate⟩,
   ⟨"rk_audio_get_volume", serRkAudioGetVolume⟩,
   ⟨"rk_audio_set_volume", serRkAudioSetVolume⟩,
   ⟨"rk_audio_get_enable_vqe", serRkAudioGetEnableVqe⟩,
   ⟨"rk_audio_set_enable_vqe", serRkAudioSetEnableVqe⟩,
   ⟨"rk_audio_get_encode_type", serRkAudioGetEncodeType⟩,
   ⟨"rk_audio_set_encode_type", serRkAudioSetEncodeType⟩,
   ⟨"rk_video_restart", serRkVideoRestart⟩,
   ⟨"rk_video_get_gop", serRkVideoGetGop⟩,
   ⟨"rk_video_set_gop", serRkVideoSetGop⟩,
   ⟨"rk_video_get_max_rate", serRkVideoGetMaxRate⟩,
   ⟨"rk_video_set_max_rate", serRkVideoSetMaxRate⟩,
   ⟨"rk_video_get_RC_mode", serRkVideoGetRCMode⟩,
   ⟨"rk_video_set_RC_mode", serRkVideoSetRCMode⟩,
   ⟨"rk_video_get_output_data_type", serRkVideoGetOutputDataType⟩,
   ⟨"rk_video_set_output_data_type", serRkVideoSetOutputDataType⟩,
   ⟨"rk_video_get_rc_quality", serRkVideoGetRcQuality⟩,
   ⟨"rk_video_set_rc_quality", serRkVideoSetRcQuality⟩,
   ⟨"rk_video_get_smart", serRkVideoGetSmart⟩,
   ⟨"rk_video_set_smart", serRkVideoSetSmart⟩,
   ⟨"rk_video_get_gop_mode", serRkVideoGetGopMode⟩,
   ⟨"rk_video_set_gop_mode", serRkVideoSetGopMode⟩,
   ⟨"rk_video_get_stream_type", serRkVideoGetStreamType⟩,
   ⟨"rk_video_set_stream_type", serRkVideoSetStreamType⟩,
   ⟨"rk_video_get_h264_profile", serRkVideoGetH264Profile⟩,
   ⟨"rk_video_set_h264_profile", serRkVideoSetH264Profile⟩,
   ⟨"rk_video_get_resolution", serRkVideoGetResolution⟩,
   ⟨"rk_video_set_resolution", serRkVideoSetResolution⟩,
   ⟨"rk_video_get_frame_rate", serRkVideoGetFrameRate⟩,
   ⟨"rk_video_set_frame_rate", serRkVideoSetFrameRate⟩,
   ⟨"rk_video_get_frame_rate_in", serRkVideoGetFrameRateIn⟩,
   ⟨"rk_video_set_frame_rate_in", serRkVideoSetFrameRateIn⟩,
   ⟨"rk_video_get_rotation", serRkVideoGetRotation⟩,
   ⟨"rk_video_set_rotation", serRkVideoSetRotation⟩,
   ⟨"rk_video_get_enable_cycle_snapshot", serRkVideoGetEnableCycleSnapshot⟩,
   ⟨"rk_video_set_enable_cycle_snapshot", serRkVideoSetEnableCycleSnapshot⟩,
   ⟨"rk_video_get_image_quality", serRkVideoGetImageQuality⟩,
   ⟨"rk_video_set_image_quality", serRkVideoSetImageQuality⟩,
   ⟨"rk_video_get_snapshot_interval_ms", serRkVideoGetSnapshotIntervalMs⟩,
   ⟨"rk_video_set_snapshot_interval_ms", serRkVideoSetSnapshotIntervalMs⟩,
   ⟨"rk_video_get_jpeg_resolution", serRkVideoGetJpegResolution⟩,
   ⟨"rk_video_set_jpeg_resolution", serRkVideoSetJpegResolution⟩,
   ⟨"rk_osd_get_is_presistent_text", serRkOsdGetIsPresistentText⟩,
   ⟨"rk_osd_set_is_presistent_text", serRkOsdSetIsPresistentText⟩,
   ⟨"rk_osd_get_font_size", serRkOsdGetFontSize⟩,
   ⟨"rk_osd_set_font_size", serRkOsdSetFontSize⟩,
   ⟨"rk_osd_get_boundary", serRkOsdGetBoundary⟩,
   ⟨"rk_osd_set_boundary", serRkOsdSetBoundary⟩,
   ⟨"rk_osd_get_normalized_screen_width", serRkOsdGetNormalizedScreenWidth⟩,
   ⟨"rk_osd_get_normalized_screen_height", serRkOsdGetNormalizedScreenHeight⟩,
   ⟨"rk_osd_get_attribute", serRkOsdGetAttribute⟩,
   ⟨"rk_osd_set_attribute", serRkOsdSetAttribute⟩,
   ⟨"rk_osd_get_font_color_mode", serRkOsdGetFontColorMode⟩,
   ⟨"rk_osd_set_font_color_mode", serRkOsdSetFontColorMode⟩,
   ⟨"rk_osd_get_font_color", serRkOsdGetFontColor⟩,
   ⟨"rk_osd_set_font_color", serRkOsdSetFontColor⟩,
   ⟨"rk_osd_get_alignment", serRkOsdGetAlignment⟩,
   ⟨"rk_osd_set_alignment", serRkOsdSetAlignment⟩,
   ⟨"rk_osd_get_font_path", serRkOsdGetFontPath⟩,
   ⟨"rk_osd_set_font_path", serRkOsdSetFontPath⟩,
   ⟨"rk_osd_get_enabled", serRkOsdGetEnabled⟩,
   ⟨"rk_osd_set_enabled", serRkOsdSetEnabled⟩,
   ⟨"rk_osd_get_position_x", serRkOsdGetPositionX⟩,
   ⟨"rk_osd_set_position_x", serRkOsdSetPositionX⟩,
   ⟨"rk_osd_get_position_y", serRkOsdGetPositionY⟩,
   ⟨"rk_osd_set_position_y", serRkOsdSetPositionY⟩,
   ⟨"rk_osd_get_height", serRkOsdGetHeight⟩,
   ⟨"rk_osd_set_height", serRkOsdSetHeight⟩,
   ⟨"rk_osd_get_width", serRkOsdGetWidth⟩,
   ⟨"rk_osd_set_width", serRkOsdSetWidth⟩,
   ⟨"rk_osd_get_display_week_enabled", serRkOsdGetDisplayWeekEnabled⟩,
   ⟨"rk_osd_set_display_week_enabled", serRkOsdSetDisplayWeekEnabled⟩,
   ⟨"rk_osd_get_date_style", serRkOsdGetDateStyle⟩,
   ⟨"rk_osd_set_date_style", serRkOsdSetDateStyle⟩,
   ⟨"rk_osd_get_time_style", serRkOsdGetTimeStyle⟩,
   ⟨"rk_osd_set_time_style", serRkOsdSetTimeStyle⟩,
   ⟨"rk_osd_get_type", serRkOsdGetType⟩,
   ⟨"rk_osd_set_type", serRkOsdSetType⟩,
   ⟨"rk_osd_get_display_text", serRkOsdGetDisplayText⟩,
   ⟨"rk_osd_set_display_text", serRkOsdSetDisplayText⟩,
   ⟨"rk_osd_get_image_path", serRkOsdGetImagePath⟩,
   ⟨"rk_osd_set_image_path", serRkOsdSetImagePath⟩,
   ⟨"rk_osd_get_style", serRkOsdGetStyle⟩,
   ⟨"rk_osd_set_style", serRkOsdSetStyle⟩,
   ⟨"rk_osd_restart", serRkOsdRestart⟩,
   ⟨"rk_roi_get_stream_type", serRkRoiGetStreamType⟩,
   ⟨"rk_roi_set_stream_type", serRkRoiSetStreamType⟩,
   ⟨"rk_roi_get_name", serRkRoiGetName⟩,
   ⟨"rk_roi_set_name", serRkRoiSetName⟩,
   ⟨"rk_roi_get_id", serRkRoiGetId⟩,
   ⟨"rk_roi_set_id", serRkRoiSetId⟩,
   ⟨"rk_roi_get_enabled", serRkRoiGetEnabled⟩,
   ⟨"rk_roi_set_enabled", serRkRoiSetEnabled⟩,
   ⟨"rk_roi_get_position_x", serRkRoiGetPositionX⟩,
   ⟨"rk_roi_set_position_x", serRkRoiSetPositionX⟩,
   ⟨"rk_roi_get_position_y", serRkRoiGetPositionY⟩,
   ⟨"rk_roi_set_position_y", serRkRoiSetPositionY⟩,
   ⟨"rk_roi_get_height", serRkRoiGetHeight⟩,
   ⟨"rk_roi_set_height", serRkRoiSetHeight⟩,
   ⟨"rk_roi_get_width", serRkRoiGetWidth⟩,
   ⟨"rk_roi_set_width", serRkRoiSetWidth⟩,
   ⟨"rk_roi_get_quality_level", serRkRoiGetQualityLevel⟩,
   ⟨"rk_roi_set_quality_level", serRkRoiSetQualityLevel⟩,
   ⟨"rk_roi_set_all", serRkRoiSetAll⟩,
   ⟨"rk_region_clip_get_enabled", serRkRegionClipGetEnabled⟩,
   ⟨"rk_region_clip_set_enabled", serRkRegionClipSetEnabled⟩,
   ⟨"rk_region_clip_get_position_x", serRkRegionClipGetPositionX⟩,
   ⟨"rk_region_clip_set_position_x", serRkRegionClipSetPositionX⟩,
   ⟨"rk_region_clip_get_position_y", serRkRegionClipGetPositionY⟩,
   ⟨"rk_region_clip_set_position_y", serRkRegionClipSetPositionY⟩,
   ⟨"rk_region_clip_get_height", serRkRegionClipGetHeight⟩,
   ⟨"rk_region_clip_set_height", serRkRegionClipSetHeight⟩,
   ⟨"rk_region_clip_get_width", serRkRegionClipGetWidth⟩,
   ⟨"rk_region_clip_set_width", serRkRegionClipSetWidth⟩,
   ⟨"rk_region_clip_set_all", serRkRegionClipSetAll⟩,
   ⟨"rk_network_ipv4_get", serRkNetworkIpv4Get⟩,
   ⟨"rk_network_ipv4_set", serRkNetworkIpv4Set⟩,
   ⟨"rk_network_dns_get", serRkNetworkDnsGet⟩,
   ⟨"rk_network_dns_set", serRkNetworkDnsSet⟩,
   ⟨"rk_network_get_mac", serRkNetworkGetMac⟩,
   ⟨"rk_network_nicspeed_get", serRkNetworkNicspeedGet⟩,
   ⟨"rk_network_nicspeed_set", serRkNetworkNicspeedSet⟩,
   ⟨"rk_network_nicspeed_support_get", serRkNetworkNicspeedSupportGet⟩,
   ⟨"rk_wifi_power_get", serRkWifiPowerGet⟩,
   ⟨"rk_wifi_power_set", serRkWifiPowerSet⟩,
   ⟨"rk_wifi_scan_wifi", serRkWifiScanWifi⟩,
   ⟨"rk_wifi_get_list", serRkWifiGetList⟩,
   ⟨"rk_wifi_connect_with_ssid", serRkWifiConnectWithSsid⟩,
   ⟨"rk_wifi_forget_with_ssid", serRkWifiForgetWithSsid⟩,
   ⟨"rk_storage_record_start", serRkStorageRecordStart⟩,
   ⟨"rk_storage_record_stop", serRkStorageRecordStop⟩,
   ⟨"rk_storage_record_statue_get", serRkStorageRecordStatueGet⟩,
   ⟨"rk_take_photo", serRkTakePhoto⟩,
   ⟨"rk_event_ri_get_enabled", serRkEventRiGetEnabled⟩,
   ⟨"rk_event_ri_set_enabled", serRkEventRiSetEnabled⟩,
   ⟨"rk_event_ri_get_position_x", serRkEventRiGetPositionX⟩,
   ⟨"rk_event_ri_set_position_x", serRkEventRiSetPositionX⟩,
   ⟨"rk_event_ri_get_position_y", serRkEventRiGetPositionY⟩,
   ⟨"rk_event_ri_set_position_y", serRkEventRiSetPositionY⟩,
   ⟨"rk_event_ri_get_width", serRkEventRiGetWidth⟩,
   ⟨"rk_event_ri_set_width", serRkEventRiSetWidth⟩,
   ⟨"rk_event_ri_get_height", serRkEventRiGetHeight⟩,
   ⟨"rk_event_ri_set_height", serRkEventRiSetHeight⟩,
   ⟨"rk_event_ri_get_proportion", serRkEventRiGetProportion⟩,
   ⟨"rk_event_ri_set_proportion", serRkEventRiSetProportion⟩,
   ⟨"rk_event_ri_get_sensitivity_level", serRkEventRiGetSensitivityLevel⟩,
   ⟨"rk_event_ri_set_sensitivity_level", serRkEventRiSetSensitivityLevel⟩,
   ⟨"rk_event_ri_get_time_threshold", serRkEventRiGetTimeThreshold⟩,
   ⟨"rk_event_ri_set_time_threshold", serRkEventRiSetTimeThreshold⟩,
   ⟨"rk_system_capability_get_video", serRkSystemCapabilityGetVideo⟩,
   ⟨"rk_system_capability_get_image_adjustment", serRkSystemCapabilityGetImageAdjustment⟩,
   ⟨"rk_system_capability_get_image_blc", serRkSystemCapabilityGetImageBlc⟩,
   ⟨"rk_system_capability_get_image_enhancement", serRkSystemCapabilityGetImageEnhancement⟩,
   ⟨"rk_system_capability_get_image_exposure", serRkSystemCapabilityGetImageExposure⟩,
   ⟨"rk_system_capability_get_image_night_to_day", serRkSystemCapabilityGetImageNightToDay⟩,
   ⟨"rk_system_capability_get_image_video_adjustment",
    serRkSystemCapabilityGetImageVideoAdjustment⟩,
   ⟨"rk_system_capability_get_image_white_blance", serRkSystemCapabilityGetImageWhiteBlance⟩,
   ⟨"rk_system_get_deivce_name", serRkSystemGetDeivceName⟩,
   ⟨"rk_system_get_telecontrol_id", serRkSystemGetTelecontrolId⟩,
   ⟨"rk_system_get_model", serRkSystemGetModel⟩,
   ⟨"rk_system_get_serial_number", serRkSystemGetSerialNumber⟩,
   ⟨"rk_system_get_firmware_version", serRkSystemGetFirmwareVersion⟩,
   ⟨"rk_system_get_encoder_version", serRkSystemGetEncoderVersion⟩,
   ⟨"rk_system_get_web_version", serRkSystemGetWebVersion⟩,
   ⟨"rk_system_get_plugin_version", serRkSystemGetPluginVersion⟩,
   ⟨"rk_system_get_channels_number", serRkSystemGetChannelsNumber⟩,
   ⟨"rk_system_get_hard_disks_number", serRkSystemGetHardDisksNumber⟩,
   ⟨"rk_system_get_alarm_inputs_number", serRkSystemGetAlarmInputsNumber⟩,
   ⟨"rk_system_get_alarm_outputs_number", serRkSystemGetAlarmOutputsNumber⟩,
   ⟨"rk_system_get_firmware_version_info", serRkSystemGetFirmwareVersionInfo⟩,
   ⟨"rk_system_get_manufacturer", serRkSystemGetManufacturer⟩,
   ⟨"rk_system_get_hardware_id", serRkSystemGetHardwareId⟩,
   ⟨"rk_system_set_deivce_name", serRkSystemSetDeivceName⟩,
   ⟨"rk_system_set_telecontrol_id", serRkSystemSetTelecontrolId⟩,
   ⟨"rk_system_reboot", serRkSystemReboot⟩,
   ⟨"rk_system_factory_reset", serRkSystemFactoryReset⟩,
   ⟨"rk_system_export_log", serRkSystemExportLog⟩,
   ⟨"rk_system_export_db", serRkSystemExportDb⟩,
   ⟨"rk_system_import_db", serRkSystemImportDb⟩,
   ⟨"rk_system_upgrade", serRkSystemUpgrade⟩,
   ⟨"rk_system_get_user_num", serRkSystemGetUserNum⟩,
   ⟨"rk_system_set_user_num", serRkSystemSetUserNum⟩,
   ⟨"rk_system_get_user_level", serRkSystemGetUserLevel⟩,
   ⟨"rk_system_set_user_level", serRkSystemSetUserLevel⟩,
   ⟨"rk_system_get_user_name", serRkSystemGetUserName⟩,
   ⟨"rk_system_set_user_name", serRkSystemSetUserName⟩,
   ⟨"rk_system_get_password", serRkSystemGetPassword⟩,
   ⟨"rk_system_set_password", serRkSystemSetPassword⟩,
   ⟨"rk_system_add_user", serRkSystemAddUser⟩,
   ⟨"rk_system_del_user", serRkSystemDelUser⟩]

/-! ## The names -/

/-- The bytes of a string literal, without its terminator. -/
def cString (s : String) : List UInt8 := s.toByteArray.data.toList

/-- `strcmp` of a string with what is at a pointer finds no difference. -/
def strcmpEq : List UInt8 → (ℕ → UInt8) → Bool
  | [], mem => mem 0 == 0
  | b :: s, mem => mem 0 == b && strcmpEq s (fun i => mem (i + 1))

/-- At a pointer there is one string. -/
theorem strcmpEq_unique {s t : List UInt8} {mem : ℕ → UInt8} (hs0 : 0 ∉ s) (ht0 : 0 ∉ t)
    (hs : strcmpEq s mem) (ht : strcmpEq t mem) : s = t := by
  induction s generalizing t mem with
  | nil =>
    cases t with
    | nil => rfl
    | cons b t =>
      -- the first byte is the terminator, and is not
      simp only [strcmpEq, Bool.and_eq_true, beq_iff_eq] at hs ht
      exact absurd (by simp [← ht.1, hs]) ht0
  | cons a s ih =>
    cases t with
    | nil =>
      simp only [strcmpEq, Bool.and_eq_true, beq_iff_eq] at hs ht
      exact absurd (by simp [← hs.1, ht]) hs0
    | cons b t =>
      simp only [strcmpEq, Bool.and_eq_true, beq_iff_eq] at hs ht
      simp only [List.mem_cons, not_or] at hs0 ht0
      rw [ih hs0.2 ht0.2 hs.2 ht.2, ← hs.1, ← ht.1]

/-- A string as one number, so that names are compared quickly. -/
def nameKey (s : List UInt8) : ℕ := s.foldl (fun k b => k * 256 + b.toNat) 0

/-- No number occurs twice. -/
def distinct : List ℕ → Bool
  | [] => true
  | k :: ks => ks.all (fun j => !(Nat.beq k j)) && distinct ks

theorem nodup_of_distinct {ks : List ℕ} (h : distinct ks) : ks.Nodup := by
  induction ks with
  | nil => exact List.nodup_nil
  | cons k ks ih =>
    rw [distinct, Bool.and_eq_true, List.all_eq_true] at h
    refine List.nodup_cons.mpr ⟨fun hk => ?_, ih h.2⟩
    simpa using h.1 k hk

set_option maxRecDepth 20000 in
theorem map_names_distinct : distinct (map.map fun e => nameKey (cString e.funName)) := by
  decide +kernel

set_option maxRecDepth 20000 in
theorem map_names_terminated : ∀ e ∈ map, 0 ∉ cString e.funName := by
  decide +kernel

theorem map_nodup : map.Nodup := (nodup_of_distinct map_names_distinct).of_map _

/-- **At most one entry of the table** has the name at a pointer. -/
theorem map_entry_unique {e f : FunMap} (he : e ∈ map) (hf : f ∈ map) {mem : ℕ → UInt8}
    (hse : strcmpEq (cString e.funName) mem) (hsf : strcmpEq (cString f.funName) mem) : e = f := by
  have hname : cString e.funName = cString f.funName :=
    strcmpEq_unique (map_names_terminated e he) (map_names_terminated f hf) hse hsf
  -- equal names have equal keys, and these are distinct
  exact List.inj_on_of_nodup_map (nodup_of_distinct map_names_distinct) he hf
    (congrArg nameKey hname)

end RkIpc.Server
